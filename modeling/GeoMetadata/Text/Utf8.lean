/-!
# UTF-8

`decode` turns bytes into characters.  It takes the shortest and only the shortest form of
each character, and no surrogates, and tells where and why it fails otherwise.  `breakLines`
turns every line break into a line feed.
-/

namespace GeoMetadata.Text.Utf8

/-- Why bytes are no text. -/
inductive Reason where
  | invalidStart
  | invalidContinuation
  | endOfData
  deriving DecidableEq, Repr

/-- What is said about the bytes. -/
def Reason.message : Reason → String
  | .invalidStart => "invalid start byte"
  | .invalidContinuation => "invalid continuation byte"
  | .endOfData => "unexpected end of data"

/-- The bytes at fault: the first of them, its position, their number, and the reason. -/
structure Fault where
  byte : UInt8
  position : Nat
  count : Nat
  reason : Reason
  deriving DecidableEq, Repr

/-- What is said about bytes that are no text. -/
def Fault.message (fault : Fault) : String :=
  let place := if fault.count = 1 then
      let digits := Nat.toDigits 16 fault.byte.toNat
      "byte 0x" ++ String.ofList (List.replicate (2 - digits.length) '0' ++ digits)
        ++ " in position " ++ toString fault.position
    else "bytes in position " ++ toString fault.position ++ "-"
      ++ toString (fault.position + fault.count - 1)
  "'utf-8' codec can't decode " ++ place ++ ": " ++ fault.reason.message

/-- What a start byte calls for: the bits it gives, the number of further bytes, and the least
and greatest second byte. -/
structure Lead where
  bits : Nat
  further : Nat
  least : Nat
  greatest : Nat

/-- What a byte calls for as the start of a character. -/
def lead? (byte : UInt8) : Option Lead :=
  let n := byte.toNat
  if n < 0x80 then some ⟨n, 0, 0, 0⟩
  else if n < 0xC2 then none
  else if n < 0xE0 then some ⟨n - 0xC0, 1, 0x80, 0xBF⟩
  else if n < 0xF0 then
    some ⟨n - 0xE0, 2, if n = 0xE0 then 0xA0 else 0x80, if n = 0xED then 0x9F else 0xBF⟩
  else if n < 0xF5 then
    some ⟨n - 0xF0, 3, if n = 0xF0 then 0x90 else 0x80, if n = 0xF4 then 0x8F else 0xBF⟩
  else none

/-- Adds further bytes to the bits of a character. A failure gives the number of bytes at
fault after the first `seen`. -/
def continueWith (bits : Nat) (seen : Nat) : (further : Nat) → (least greatest : Nat) →
    List UInt8 → Except (Nat × Reason) Nat
  | 0, _, _, _ => .ok bits
  | _ + 1, _, _, [] => .error (seen, .endOfData)
  | further + 1, least, greatest, byte :: rest =>
    if least ≤ byte.toNat ∧ byte.toNat ≤ greatest then
      continueWith (64 * bits + (byte.toNat - 0x80)) (seen + 1) further 0x80 0xBF rest
    else .error (seen, .invalidContinuation)

/-- Decodes bytes that start at a position, after characters that are given in reverse
order. -/
def decodeFrom (position : Nat) (done : List Char) : List UInt8 → Except Fault (List Char)
  | [] => .ok done.reverse
  | byte :: rest =>
    match lead? byte with
    | none => .error ⟨byte, position, 1, .invalidStart⟩
    | some lead =>
      match continueWith lead.bits 1 lead.further lead.least lead.greatest rest with
      | .error (count, reason) => .error ⟨byte, position, count, reason⟩
      | .ok code =>
        decodeFrom (position + 1 + lead.further) (Char.ofNat code :: done)
          (rest.drop lead.further)
  termination_by bytes => bytes.length
  decreasing_by simp only [List.length_drop, List.length_cons]; omega

/-- The characters of some bytes. -/
def decode (bytes : List UInt8) : Except Fault (List Char) := decodeFrom 0 [] bytes

/-- The text with every line break as a line feed: a carriage return counts as one, alone or
with the line feed after it. -/
def breakLines : List Char → List Char
  | [] => []
  | '\r' :: '\n' :: rest => '\n' :: breakLines rest
  | '\r' :: rest => '\n' :: breakLines rest
  | c :: rest => c :: breakLines rest

end GeoMetadata.Text.Utf8
