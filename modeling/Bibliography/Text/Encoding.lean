import Bibliography.Text.Raw

/-!
Text as the bytes of a file. Decoding is strict: the first bytes that cannot be
part of a character are reported with their place and the reason. Line ends of
every kind are read as a line feed; writing changes nothing. Raw text can be encoded
as far as there are bytes for its surrogates; the first run of surrogates from one
without a byte on is reported.
-/

namespace Bibliography.Text

inductive BadBytes
  | invalidStart
  | invalidContinuation
  | unexpectedEnd

/-- The bytes from `start` on, as many as could belong to one character. -/
structure DecodeError where
  start : Nat
  length : Nat
  first : UInt8
  reason : BadBytes

def BadBytes.message : BadBytes → Text
  | invalidStart => "invalid start byte".toList
  | invalidContinuation => "invalid continuation byte".toList
  | unexpectedEnd => "unexpected end of data".toList

def hexByte (byte : UInt8) : Text := "0x".toList ++ hexDigits 2 byte.toNat

def DecodeError.message (error : DecodeError) : Text :=
  "'utf-8' codec can't decode ".toList ++
    (if error.length = 1 then
      "byte ".toList ++ hexByte error.first ++ " in position ".toList ++ ofNat error.start
    else
      "bytes in position ".toList ++ ofNat error.start ++ "-".toList ++
        ofNat (error.start + error.length - 1)) ++
    ": ".toList ++ error.reason.message

def leadByte? (byte : UInt8) : Option (Nat × Nat) :=
  let code := byte.toNat
  if code < 0x80 then some (0, code)
  else if code < 0xC2 then none
  else if code < 0xE0 then some (1, code - 0xC0)
  else if code < 0xF0 then some (2, code - 0xE0)
  else if code < 0xF5 then some (3, code - 0xF0)
  else none

/-- The bytes allowed after a lead byte: overlong forms, surrogates and code
points beyond the last one are excluded here. -/
def secondRange (lead : UInt8) : Nat × Nat :=
  if lead = 0xE0 then (0xA0, 0xBF)
  else if lead = 0xED then (0x80, 0x9F)
  else if lead = 0xF0 then (0x90, 0xBF)
  else if lead = 0xF4 then (0x80, 0x8F)
  else (0x80, 0xBF)

/-- Reads the bytes after a lead byte. A failure tells how many were good. -/
def readContinuation : Nat × Nat → Nat → Nat → List UInt8 →
    Except (BadBytes × Nat) (Nat × List UInt8)
  | _, 0, code, rest => .ok (code, rest)
  | _, _ + 1, _, [] => .error (.unexpectedEnd, 0)
  | range, count + 1, code, byte :: rest =>
      if range.1 ≤ byte.toNat ∧ byte.toNat ≤ range.2 then
        match readContinuation (0x80, 0xBF) count (64 * code + (byte.toNat - 0x80)) rest with
        | .ok read => .ok read
        | .error (reason, good) => .error (reason, good + 1)
      else .error (.invalidContinuation, 0)

theorem read_continuation_length_le {range : Nat × Nat} {count code result : Nat}
    {bytes rest : List UInt8}
    (read : readContinuation range count code bytes = .ok (result, rest)) :
    rest.length ≤ bytes.length := by
  induction count generalizing range code bytes with
  | zero =>
      simp only [readContinuation, Except.ok.injEq, Prod.mk.injEq] at read
      exact read.2 ▸ Nat.le_refl _
  | succ count induction =>
      cases bytes with
      | nil => simp [readContinuation] at read
      | cons byte others =>
          simp only [readContinuation] at read
          split at read
          · split at read
            · next inner =>
                simp only [Except.ok.injEq] at read
                subst read
                have := induction inner
                simp
                omega
            · simp at read
          · simp at read

def decodeFrom (position : Nat) (bytes : List UInt8) : Except DecodeError Text :=
  match bytes with
  | [] => .ok []
  | lead :: others =>
      match leadByte? lead with
      | none => .error ⟨position, 1, lead, .invalidStart⟩
      | some (count, payload) =>
          match read : readContinuation (secondRange lead) count payload others with
          | .error (reason, good) => .error ⟨position, good + 1, lead, reason⟩
          | .ok (code, rest) =>
              have := read_continuation_length_le read
              match decodeFrom (position + count + 1) rest with
              | .error error => .error error
              | .ok text => .ok (Char.ofNat code :: text)
termination_by bytes.length

def decode (bytes : List UInt8) : Except DecodeError Text := decodeFrom 0 bytes

def encode (text : Text) : List UInt8 := text.flatMap String.utf8EncodeChar

structure EncodeError where
  start : Nat
  first : Fin 0x800
  length : Nat

def EncodeError.message (error : EncodeError) : Text :=
  "'utf-8' codec can't encode ".toList ++
    (if error.length = 1 then
      "character '".toList ++ CodePoint.surrogateCode error.first ++ "' in position ".toList ++
        ofNat error.start
    else
      "characters in position ".toList ++ ofNat error.start ++ "-".toList ++
        ofNat (error.start + error.length - 1)) ++
    ": surrogates not allowed".toList

def encodeRawFrom (byte? : Fin 0x800 → Option UInt8) :
    Nat → RawText → Except EncodeError (List UInt8)
  | _, [] => .ok []
  | position, .char value :: rest =>
      (encodeRawFrom byte? (position + 1) rest).map (String.utf8EncodeChar value ++ ·)
  | position, .surrogate index :: rest =>
      match byte? index with
      | none =>
          .error ⟨position, index, (rest.takeWhile CodePoint.isSurrogate).length + 1⟩
      | some byte => (encodeRawFrom byte? (position + 1) rest).map (byte :: ·)

def encodeRaw (byte? : Fin 0x800 → Option UInt8) (text : RawText) :
    Except EncodeError (List UInt8) :=
  encodeRawFrom byte? 0 text

/-- The surrogates that stand for the bytes from 0x80 on. -/
def escapedByte? (index : Fin 0x800) : Option UInt8 :=
  if 0x480 ≤ index.val ∧ index.val < 0x500 then some (UInt8.ofNat (index.val - 0x400)) else none

/-- Carriage returns, alone or before a line feed, become line feeds. -/
def unifyLineEnds : Text → Text
  | [] => []
  | '\r' :: '\n' :: rest => '\n' :: unifyLineEnds rest
  | '\r' :: rest => '\n' :: unifyLineEnds rest
  | char :: rest => char :: unifyLineEnds rest

end Bibliography.Text
