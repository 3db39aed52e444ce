import Bibliography.Text.Encoding

/-!
What a command relies on besides files: standard output, and a reader of another make by
which it can have its own text checked. Nothing is assumed about either.

Standard output may refuse a text, as an encoding does that has no bytes for one of its
code points, or a stream that is gone. Of a refused text nothing is printed. Standard error
writes the code of what it cannot encode and takes every text.
-/

namespace Bibliography

open Text

/-- Standard output: why it refuses a text, if it does. -/
structure Console where
  refusal? : RawText → Option Text

namespace Console

def keeping : Console where
  refusal? _ := none

/-- UTF-8 without a way to write surrogates. -/
def strict : Console where
  refusal? text :=
    match encodeRaw (fun _ => none) text with
    | .error error => some error.message
    | .ok _ => none

end Console

/-- How reading a text back ends: with a number of entries, with a complaint about the
text, or with a failure of the reader itself. -/
inductive ReadBack
  | entries (count : Nat)
  | unreadable (message : Text)
  | broken (message : Text)

namespace ReadBack

def succeeded : ReadBack → Bool
  | entries _ => true
  | _ => false

def warnings : ReadBack → List Text
  | unreadable message => ["pybtex could not read the tidied output: ".toList ++ message]
  | _ => []

def remarks : ReadBack → List Text
  | entries count => ["pybtex read back ".toList ++ ofNat count ++ " entries".toList]
  | _ => []

end ReadBack

structure Host where
  console : Console
  readBack : Text → ReadBack

end Bibliography
