import ZigbeeGateway.Gateway.Run
import ZigbeeGateway.Gateway.StartUp
import ZigbeeGateway.Main
import ZigbeeGateway.Payload.Size
import ZigbeeGateway.Radio.Session
import ZigbeeGateway.Proofs.Payload.ReaderRuns
import ZigbeeGateway.Proofs.Payload.Truncation
import ZigbeeGateway.Proofs.Number.Pattern
import ZigbeeGateway.Proofs.Number.Rounding
import ZigbeeGateway.Proofs.Number.Conversion
import ZigbeeGateway.Proofs.Payload.Appending
import ZigbeeGateway.Proofs.Fields
import ZigbeeGateway.Proofs.Json.Meaning
import ZigbeeGateway.Proofs.Payload.Pieces
import ZigbeeGateway.Proofs.Payload.Spelling
import ZigbeeGateway.Proofs.Text.Digits
import ZigbeeGateway.Proofs.Payload.Numbers
import ZigbeeGateway.Proofs.Payload.Leaves
import ZigbeeGateway.Proofs.Payload.Records
import ZigbeeGateway.Proofs.Payload.Rereading
import ZigbeeGateway.Proofs.Payload.ReadingBack
import ZigbeeGateway.Proofs.Number.Decimal
import ZigbeeGateway.Proofs.Json.NumberTexts
import ZigbeeGateway.Proofs.Json.Printing
import ZigbeeGateway.Proofs.Json.RoundTrip
import ZigbeeGateway.Proofs.Payload.ThroughJson
import ZigbeeGateway.Proofs.Radio.WaitingRoom
import ZigbeeGateway.Proofs.Radio.Queues
import ZigbeeGateway.Proofs.Radio.FirstCome
import ZigbeeGateway.Proofs.Radio.Chunks
import ZigbeeGateway.Proofs.Radio.Noise
import ZigbeeGateway.Proofs.Info.Grammar
import ZigbeeGateway.Proofs.Schema.Contents
import ZigbeeGateway.Proofs.Schema.Loading
import ZigbeeGateway.Proofs.Info.Writing
import ZigbeeGateway.Proofs.Schema.Writing
import ZigbeeGateway.Proofs.Payload.Checks
import ZigbeeGateway.Proofs.Schema.Consistency
import ZigbeeGateway.Proofs.Info.Rendering
import ZigbeeGateway.Proofs.Radio.Endings
import ZigbeeGateway.Proofs.Radio.Answers
import ZigbeeGateway.Proofs.Mqtt.Topics
import ZigbeeGateway.Proofs.Zcl.Frames
import ZigbeeGateway.Proofs.Gateway.Outgoing
import ZigbeeGateway.Proofs.Gateway.Runs
import ZigbeeGateway.Proofs.Gateway.Retransmissions
import ZigbeeGateway.Number.Words
import ZigbeeGateway.Proofs.Number.Nearest
import ZigbeeGateway.Proofs.Number.Words
import ZigbeeGateway.Proofs.Payload.Written
import ZigbeeGateway.Proofs.Payload.Sizes
import ZigbeeGateway.Proofs.Payload.Nulls
import ZigbeeGateway.Number.Scaling
import ZigbeeGateway.Proofs.Number.Scaling
import ZigbeeGateway.Proofs.Payload.Ranges
import ZigbeeGateway.Proofs.Payload.SideBySide
import ZigbeeGateway.Proofs.Payload.Naming
import ZigbeeGateway.Proofs.Payload.Repetition
import ZigbeeGateway.Proofs.Radio.Segments
import ZigbeeGateway.Proofs.Radio.Damage
import ZigbeeGateway.Proofs.Zcl.Format
import ZigbeeGateway.Proofs.Gateway.Repeats
import ZigbeeGateway.Proofs.Gateway.Transactions
import ZigbeeGateway.Proofs.Heartbeat
import ZigbeeGateway.Proofs.Payload.Received
import ZigbeeGateway.Proofs.Gateway.Reports
import ZigbeeGateway.Proofs.Gateway.Expansion
import ZigbeeGateway.Proofs.Gateway.Names
import ZigbeeGateway.Proofs.Gateway.Addresses
import ZigbeeGateway.Proofs.Radio.Messages
import ZigbeeGateway.Proofs.Gateway.StartUp
import ZigbeeGateway.Schema.Places
import ZigbeeGateway.Proofs.Schema.Tables
import ZigbeeGateway.Proofs.Gateway.Numerals
import ZigbeeGateway.Proofs.Text.Utf8
import ZigbeeGateway.Proofs.Mqtt.Escapes
import ZigbeeGateway.Proofs.Mqtt.Urls
import ZigbeeGateway.Info.Descent
import ZigbeeGateway.Proofs.Info.Descent
import ZigbeeGateway.Proofs.Info.Derivations
import ZigbeeGateway.Proofs.Info.Accounts
import ZigbeeGateway.Proofs.Radio.Upkeep
import ZigbeeGateway.Proofs.Schema.EntryNumbers
