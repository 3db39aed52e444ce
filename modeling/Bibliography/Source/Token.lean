import Bibliography.Source.Fault
import Bibliography.Text.Class

/-!
The lexical layer: character classes of keys, names and bare values, groups in
braces and quotes, and the header that opens a block. A reader takes the text
from its place on and gives back what it read with the text that follows.
-/

namespace Bibliography.Source

open Text

/-- Characters with a meaning of their own, inside blocks and between them. -/
def isMark (char : Char) : Bool := [',', '{', '}', '(', ')', '"', '#'].contains char

def isBareChar (char : Char) : Bool := !isBlank char && !isMark char

def isKeyChar (char : Char) : Bool := isBareChar char && char != '='

def isNameChar (char : Char) : Bool := isKeyChar char && char != '%'

/-- Cuts before the closing brace that brings the depth to zero. -/
def cutGroup (depth : Int) : Text → Option (Text × Text)
  | [] => none
  | char :: rest =>
      if char = '}' ∧ depth = 1 then some ([], rest)
      else
        let inner := if char = '{' then depth + 1 else if char = '}' then depth - 1 else depth
        (cutGroup inner rest).map fun cut => (char :: cut.1, cut.2)

/-- Cuts before the first quote at depth zero or below. -/
def cutQuoted (depth : Int) : Text → Option (Text × Text)
  | [] => none
  | char :: rest =>
      if char = '"' ∧ depth ≤ 0 then some ([], rest)
      else
        let inner := if char = '{' then depth + 1 else if char = '}' then depth - 1 else depth
        (cutQuoted inner rest).map fun cut => (char :: cut.1, cut.2)

def readBraced (text : Text) : Except Fault (Text × Text) :=
  match cutGroup 0 text with
  | some (group, rest) => .ok (group.drop 1, rest)
  | none => .error ⟨.unclosedBrace, text, [], .nothing⟩

/-- Reads a quoted string from its opening quote. Quotes inside braces do not
end it; a closing brace without a partner does not hide a quote. -/
def readQuoted (text : Text) : Except Fault (Text × Text) :=
  match cutQuoted 0 (text.drop 1) with
  | some cut => .ok cut
  | none => .error ⟨.unclosedQuote, text, [], .nothing⟩

def expect (allowed context : Text) (text : Text) : Except Fault (Char × Text) :=
  match skipBlank text with
  | [] => .error ⟨.unexpected allowed context none, [], [], .nothing⟩
  | char :: rest =>
      if allowed.contains char then .ok (char, rest)
      else .error ⟨.unexpected allowed context (some char), char :: rest, char :: rest, .nothing⟩

/-- A name, an equals sign and the blanks after it. -/
def readAssignment? (text : Text) : Option (Text × Text) :=
  match text.takeWhile isNameChar with
  | [] => none
  | name =>
      (after? '=' (skipBlank (text.dropWhile isNameChar))).map fun rest => (name, skipBlank rest)

def readKey? (text : Text) : Option (Text × Text) :=
  let start := skipBlank text
  match start.takeWhile isKeyChar with
  | [] => none
  | key => some (key, skipBlank (start.dropWhile isKeyChar))

structure Header where
  kind : Text
  enclosure : Enclosure
  body : Text

def readEnclosure? : Text → Option (Enclosure × Text)
  | [] => none
  | char :: rest =>
      if char = '{' then some (.braces, rest)
      else if char = '(' then some (.parens, rest)
      else none

/-- The opening of a block: an at sign, the kind, and a brace or parenthesis,
with blanks allowed between them. -/
def readHeader? (text : Text) : Option Header :=
  match after? '@' text with
  | none => none
  | some afterAt =>
      match skipBlank afterAt with
      | [] => none
      | first :: others =>
          if first.isAlpha || first == '_' then
            (readEnclosure? (skipBlank (others.dropWhile isWord))).map fun opened =>
              ⟨first :: others.takeWhile isWord, opened.1, opened.2⟩
          else none

/-- The first header on the current line, with the text before it and the text
from its at sign on. The header itself may go on over the next lines. -/
def findHeader? : Text → Option (Text × Text × Header)
  | [] => none
  | char :: rest =>
      if char = '\n' then none
      else match readHeader? (char :: rest) with
        | some header => some ([], char :: rest, header)
        | none => (findHeader? rest).map fun found => (char :: found.1, found.2)

theorem skip_blank_suffix (text : Text) : skipBlank text <:+ text :=
  List.dropWhile_suffix isBlank

theorem after_suffix {mark : Char} {text rest : Text} (found : after? mark text = some rest) :
    text = mark :: rest := by
  cases text with
  | nil => simp [after?] at found
  | cons char others =>
      simp only [after?] at found
      split at found
      · next same => simp_all
      · simp at found

theorem cut_group_eq {depth : Int} {text group rest : Text}
    (found : cutGroup depth text = some (group, rest)) : text = group ++ '}' :: rest := by
  induction text generalizing depth group with
  | nil => simp [cutGroup] at found
  | cons char others induction =>
      simp only [cutGroup] at found
      split at found
      · next closing => simp_all
      · obtain ⟨⟨inner, last⟩, cut, same⟩ := Option.map_eq_some_iff.1 found
        simp only [Prod.mk.injEq] at same
        obtain ⟨rfl, rfl⟩ := same
        rw [List.cons_append, ← induction cut]

theorem cut_quoted_eq {depth : Int} {text body rest : Text}
    (found : cutQuoted depth text = some (body, rest)) : text = body ++ '"' :: rest := by
  induction text generalizing depth body with
  | nil => simp [cutQuoted] at found
  | cons char others induction =>
      simp only [cutQuoted] at found
      split at found
      · next closing => simp_all
      · obtain ⟨⟨inner, last⟩, cut, same⟩ := Option.map_eq_some_iff.1 found
        simp only [Prod.mk.injEq] at same
        obtain ⟨rfl, rfl⟩ := same
        rw [List.cons_append, ← induction cut]

theorem read_braced_shorter {text value rest : Text}
    (read : readBraced text = .ok (value, rest)) : rest.length < text.length := by
  simp only [readBraced] at read
  split at read
  · next group last cut =>
      simp only [Except.ok.injEq, Prod.mk.injEq] at read
      rw [cut_group_eq cut, ← read.2]
      simp; omega
  · simp at read

theorem read_quoted_shorter {text value rest : Text}
    (read : readQuoted text = .ok (value, rest)) : rest.length < text.length := by
  simp only [readQuoted] at read
  split at read
  · next cut found =>
      simp only [Except.ok.injEq] at read
      subst read
      have parts := congrArg List.length (cut_quoted_eq found)
      simp at parts
      omega
  · simp at read

theorem expect_shorter {allowed context text rest : Text} {char : Char}
    (read : expect allowed context text = .ok (char, rest)) : rest.length < text.length := by
  have bound := (skip_blank_suffix text).length_le
  simp only [expect] at read
  split at read
  · simp at read
  · next first others start =>
      split at read
      · simp only [Except.ok.injEq, Prod.mk.injEq] at read
        rw [start, read.2] at bound
        simp at bound
        omega
      · simp at read

theorem read_assignment_length_le {text name rest : Text}
    (read : readAssignment? text = some (name, rest)) : rest.length ≤ text.length := by
  simp only [readAssignment?] at read
  split at read
  · simp at read
  · obtain ⟨last, found, same⟩ := Option.map_eq_some_iff.1 read
    simp only [Prod.mk.injEq] at same
    have marked := congrArg List.length (after_suffix found)
    have first := (List.dropWhile_suffix (l := text) isNameChar).length_le
    have second := (skip_blank_suffix (text.dropWhile isNameChar)).length_le
    have third := (skip_blank_suffix last).length_le
    rw [same.2] at third
    simp at marked
    omega

theorem read_key_length_le {text key rest : Text}
    (read : readKey? text = some (key, rest)) : rest.length ≤ text.length := by
  simp only [readKey?] at read
  split at read
  · simp at read
  · simp only [Option.some.injEq, Prod.mk.injEq] at read
    have first := (skip_blank_suffix text).length_le
    have second := (List.dropWhile_suffix (l := skipBlank text) isKeyChar).length_le
    have third := (skip_blank_suffix ((skipBlank text).dropWhile isKeyChar)).length_le
    rw [read.2] at third
    omega

theorem read_enclosure_shorter {text rest : Text} {enclosure : Enclosure}
    (read : readEnclosure? text = some (enclosure, rest)) : rest.length < text.length := by
  cases text with
  | nil => simp [readEnclosure?] at read
  | cons char others =>
      simp only [readEnclosure?] at read
      split at read
      · simp_all
      · split at read <;> simp_all

theorem read_header_shorter {text : Text} {header : Header}
    (read : readHeader? text = some header) : header.body.length + 1 < text.length := by
  simp only [readHeader?] at read
  split at read
  · simp at read
  · next afterAt found =>
      split at read
      · simp at read
      · next first others start =>
          split at read
          · obtain ⟨⟨enclosure, body⟩, opened, same⟩ := Option.map_eq_some_iff.1 read
            have lead := congrArg List.length (after_suffix found)
            have blank := (skip_blank_suffix afterAt).length_le
            have word := (List.dropWhile_suffix (l := others) isWord).length_le
            have gap := (skip_blank_suffix (others.dropWhile isWord)).length_le
            have opener := read_enclosure_shorter opened
            rw [start] at blank
            simp at lead blank
            subst same
            simp only
            omega
          · simp at read

theorem find_header_start {text before start : Text} {header : Header}
    (found : findHeader? text = some (before, start, header)) :
    text = before ++ start ∧ readHeader? start = some header := by
  induction text generalizing before with
  | nil => simp [findHeader?] at found
  | cons char others induction =>
      simp only [findHeader?] at found
      split at found
      · simp at found
      · split at found
        · next _ read => simp_all
        · obtain ⟨⟨inner, tail⟩, cut, same⟩ := Option.map_eq_some_iff.1 found
          simp only [Prod.mk.injEq] at same
          obtain ⟨rfl, rfl⟩ := same
          obtain ⟨parts, read⟩ := induction cut
          exact ⟨by rw [List.cons_append, ← parts], read⟩

end Bibliography.Source
