-- Which device has which short address. Short addresses may change hands; each stands for
-- at most one device, and each device has at most one.
import Std.Data.TreeMap
import ZigbeeGateway.Bytes
namespace ZigbeeGateway

/-- The pairs known, found from either side. -/
structure AddressBook where
  addresses : Std.TreeMap UInt16 UInt64
  shorts : Std.TreeMap UInt64 UInt16

namespace AddressBook

/-- The book without pairs. -/
def empty : AddressBook := ⟨∅, ∅⟩

/-- The device with a short address. -/
def address? (b : AddressBook) (short : UInt16) : Option UInt64 := b.addresses[short]?

/-- The short address of a device. -/
def short? (b : AddressBook) (address : UInt64) : Option UInt16 := b.shorts[address]?

/-- The short addresses without the one of a device. -/
def withoutAddress (b : AddressBook) : Option UInt64 → AddressBook
  | some old => { b with shorts := b.shorts.erase old }
  | none => b

/-- The devices without the one of a short address. -/
def withoutShort (b : AddressBook) : Option UInt16 → AddressBook
  | some old => { b with addresses := b.addresses.erase old }
  | none => b

/-- Notes a pair. Other pairs of the two are forgotten. -/
def insert (b : AddressBook) (short : UInt16) (address : UInt64) : AddressBook :=
  let b := (b.withoutAddress (b.address? short)).withoutShort (b.short? address)
  ⟨b.addresses.insert short address, b.shorts.insert address short⟩

/-- A pair is noted, and its device has no other short address. -/
theorem address?_insert (b : AddressBook) (short other : UInt16) (address : UInt64) :
    (b.insert short address).address? other =
      if other = short then some address
      else if b.short? address = some other then none
      else b.address? other := by
  rw [insert]
  cases b.address? short <;> cases b.short? address <;>
    simp only [withoutAddress, withoutShort, address?, Std.TreeMap.getElem?_insert,
      Std.TreeMap.getElem?_erase, Std.compare_eq_iff_eq] <;> grind

/-- A pair is noted, and its short address has no other device. -/
theorem short?_insert (b : AddressBook) (short : UInt16) (address other : UInt64) :
    (b.insert short address).short? other =
      if other = address then some short
      else if b.address? short = some other then none
      else b.short? other := by
  rw [insert]
  cases b.address? short <;> cases b.short? address <;>
    simp only [withoutAddress, withoutShort, short?, Std.TreeMap.getElem?_insert,
      Std.TreeMap.getElem?_erase, Std.compare_eq_iff_eq] <;> grind

end AddressBook

end ZigbeeGateway
