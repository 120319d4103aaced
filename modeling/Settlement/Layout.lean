import Settlement.ChainId
import Settlement.Digest
import Settlement.U256
import Settlement.Utf8

/-!
# Binary layouts

A value is stored as its fields one after the other, without names. Numbers have a fixed width
with the least significant byte first; texts, lists and sets are preceded by the number of
their bytes or elements in eight bytes; an optional value by a byte that says whether it is
there; and one of several alternatives by its number in four bytes.

Reading takes a value from the front of a byte string and leaves the rest. It stops at the
first fault.

The layout of a record comes from the tuple of its fields (`Settlement.Fields`), and
`Settlement.Layout.ofAlternatives` gives one to a type whose values are listed.
-/

namespace Settlement

/-! ### Faults -/

/-- What is wrong with a byte string that should hold a value. -/
inductive ReadFault where
  /-- The bytes end inside a number, a flag, an array or the elements of a list. -/
  | endOfBytes
  /-- A text is announced to be longer than the bytes that are left. -/
  | textTooLong
  /-- A text is not UTF-8. -/
  | badText (fault : Utf8.Fault)
  /-- A truth value is neither zero nor one. -/
  | badFlag (byte : UInt8)
  /-- The byte in front of an optional value is neither zero nor one. -/
  | badOption (byte : UInt8)
  /-- There are only `count` alternatives. -/
  | badAlternative (number count : Nat)
  /-- A text does not show a number. -/
  | badNumber (fault : U256.Fault)
  deriving DecidableEq

/-- The wording of a fault. -/
def ReadFault.message : ReadFault → String
  | .endOfBytes => "io error: unexpected end of file"
  | .textTooLong => "io error: "
  | .badText fault => "string is not valid utf8: " ++ fault.message
  | .badFlag byte =>
    "invalid u8 while decoding bool, expected 0 or 1, found " ++ toString byte.toNat
  | .badOption byte => "tag for enum is not valid, found " ++ toString byte.toNat
  | .badAlternative number count =>
    "invalid value: integer \x60" ++ toString number ++ "\x60, expected variant index 0 <= i < "
      ++ toString count
  | .badNumber fault => fault.message

/-! ### Reading -/

/-- Takes a value from the front of a byte string and gives it with the rest. -/
abbrev Reader (α : Type) := Bytes → Except ReadFault (α × Bytes)

namespace Reader

variable {α β : Type}

/-- Reads a value and changes it. -/
def map (f : α → β) (read : Reader α) : Reader β := fun bs =>
  (read bs).map fun (a, rest) => (f a, rest)

/-- Reads a value and then another one, whose reader may depend on the first. -/
def andThen (first : Reader α) (next : α → Reader β) : Reader β := fun bs =>
  match first bs with
  | .error fault => .error fault
  | .ok (a, rest) => next a rest

/-- Takes the given number of bytes. -/
def take (n : Nat) : Reader Bytes := fun bs =>
  if bs.length < n then .error .endOfBytes else .ok (bs.take n, bs.drop n)

/-- Takes a number of the given width. -/
def number (width : Nat) : Reader Nat :=
  (take width).map Bytes.toNatLittle

/-- Takes one byte. -/
def byte : Reader UInt8
  | [] => .error .endOfBytes
  | b :: rest => .ok (b, rest)

/-- Takes the given number of values. -/
def times (read : Reader α) : Nat → Reader (List α)
  | 0 => fun bs => .ok ([], bs)
  | n + 1 => read.andThen fun a => (times read n).map (a :: ·)

/-- Takes a text: its length and its bytes. -/
def text : Reader String := fun bs =>
  match number 8 bs with
  | .error fault => .error fault
  | .ok (n, rest) =>
    if rest.length < n then .error .textTooLong
    else
      match Utf8.decode (rest.take n) with
      | .error fault => .error (.badText fault)
      | .ok s => .ok (s, rest.drop n)

end Reader

/-! ### Layouts -/

/-- The fields of a record, in their order, as a tuple. -/
class Fields (α : Type) (β : outParam Type) where
  /-- The fields of a record. -/
  split : α → β
  /-- The record with the given fields. -/
  join : β → α
  /-- A record is given by its fields. -/
  join_split : ∀ a, join (split a) = a := by intro a; rfl

/-- How the values of a type are written and read. -/
class Layout (α : Type) where
  /-- The bytes of a value. -/
  write : α → Bytes
  /-- Takes a value from the front of a byte string. -/
  read : Reader α

namespace Layout

variable {α β : Type}

/-- The layout of a type whose values are taken for values of another type. -/
@[reducible]
def via [Layout β] (forth : α → β) (back : β → α) : Layout α where
  write a := write (forth a)
  read := read.map back

/-- The layout of a record: that of the tuple of its fields. -/
@[reducible]
def ofFields [Fields α β] [Layout β] : Layout α :=
  .via Fields.split Fields.join

/-- The layout of a type whose values are listed: the position in the list, in four bytes. -/
@[reducible]
def ofAlternatives [DecidableEq α] (all : List α) : Layout α where
  write a := Bytes.little 4 (all.idxOf a)
  read bs :=
    match Reader.number 4 bs with
    | .error fault => .error fault
    | .ok (n, rest) =>
      match all[n]? with
      | none => .error (.badAlternative n all.length)
      | some a => .ok (a, rest)

end Layout

/-! ### Numbers, flags and texts -/

instance : Layout UInt8 where
  write b := [b]
  read := Reader.byte

instance : Layout UInt32 where
  write n := Bytes.little 4 n.toNat
  read := (Reader.number 4).map UInt32.ofNat

instance : Layout UInt64 where
  write n := Bytes.little 8 n.toNat
  read := (Reader.number 8).map UInt64.ofNat

instance : Layout Int64 :=
  .via Int64.toUInt64 UInt64.toInt64

instance : Layout Bool where
  write b := [if b then 1 else 0]
  read := Reader.byte.andThen fun b bs =>
    if b = 0 then .ok (false, bs)
    else if b = 1 then .ok (true, bs)
    else .error (.badFlag b)

instance : Layout String where
  write s := Bytes.little 8 (Bytes.ofText s).length ++ Bytes.ofText s
  read := Reader.text

instance : Layout U256 where
  write x := Layout.write x.toHex
  read := Reader.text.andThen fun s bs =>
    match U256.ofText (Bytes.ofText s) with
    | .error fault => .error (.badNumber fault)
    | .ok x => .ok (x, bs)

instance : Layout Digest where
  write d := d.bytes
  read bs :=
    if h : 32 ≤ bs.length then .ok (⟨bs.take 32, by rw [List.length_take]; omega⟩, bs.drop 32)
    else .error .endOfBytes

instance : Layout ChainId :=
  .via ChainId.number ChainId.mk

/-! ### Options, lists and tuples -/

instance {α : Type} [Layout α] : Layout (Option α) where
  write
    | none => [0]
    | some a => 1 :: Layout.write a
  read := Reader.byte.andThen fun b bs =>
    if b = 0 then .ok (none, bs)
    else if b = 1 then (Layout.read : Reader α).map some bs
    else .error (.badOption b)

instance {α : Type} [Layout α] : Layout (List α) where
  write as := Bytes.little 8 as.length ++ as.flatMap Layout.write
  read := (Reader.number 8).andThen (Reader.times Layout.read)

instance {α β : Type} [Layout α] [Layout β] : Layout (α × β) where
  write x := Layout.write x.1 ++ Layout.write x.2
  read := (Layout.read : Reader α).andThen fun a => (Layout.read : Reader β).map (a, ·)

end Settlement
