-- Conversations with the radio: one request after the other, each depending on the answers
-- before it.
import ZigbeeGateway.Radio.Client
namespace ZigbeeGateway.Radio

/-- What is left of a conversation. -/
inductive Conversation (α : Type) where
  | done (result : α)
  /-- A request, and how to go on once its answer or its failure is there. -/
  | ask (r : Request) (next : Except LinkError Bytes → Conversation α)

/-- A conversation on a line: it is over, or waits for the answer to a request. -/
inductive Talk (α : Type) where
  | over (result : α)
  | waiting (r : Request) (wait : Wait) (next : Except LinkError Bytes → Conversation α)

/-- A conversation goes on until it has to wait. Requests that end at once do not make it wait. -/
def Client.converse {α : Type} (c : Client) : Conversation α → Talk α × Client
  | .done result => (.over result, c)
  | .ask r next =>
    match c.ask r with
    | (.error e, c) => c.converse (next (.error e))
    | (.ok wait, c) =>
      match c.outcome? wait with
      | none => (.waiting r wait next, c)
      | some frame => (c.giveUp wait.ticket).converse (next (frame.bind r.answer))

/-- A conversation that waits goes on if its waiting is over. -/
def Client.resume {α : Type} (c : Client) : Talk α → Talk α × Client
  | .over result => (.over result, c)
  | .waiting r wait next =>
    match c.outcome? wait with
    | none => (.waiting r wait next, c)
    | some frame => (c.giveUp wait.ticket).converse (next (frame.bind r.answer))

end ZigbeeGateway.Radio
