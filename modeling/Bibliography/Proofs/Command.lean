import Bibliography.Command
import Bibliography.Proofs.Arguments
import Bibliography.Proofs.FileTree
import Bibliography.Proofs.Source.Items
import Bibliography.Proofs.Text.Raw

/-!
What a failing command leaves behind. Writing changes one file and nothing else, and nothing is
written before the input has been tidied as a whole; a failure after that point leaves complete
texts. The last thing that can fail is the line that says where the report went: it is printed
when the report has been written. So everything depends on whether standard output takes that
line. Output that is kept as it is takes every line, and output in UTF-8 takes this one unless
an argument is malformed.
-/

namespace Bibliography

open Text

theorem Console.strict_takes {text : RawText} (plain : text.IsPlain) :
    strict.refusal? text = none := by
  obtain ⟨characters, rfl⟩ := RawText.raw_of_plain plain
  simp only [strict, encodeRaw, RawText.encode_raw_from]

namespace Command

open Arguments

theorem mem_of_mem_clean_path {path : RawText} {point : CodePoint}
    (member : point ∈ cleanPath path) : point ∈ path := by
  have inner := RawText.mem_of_mem_trim member
  split at inner
  · have between := (List.dropLast_sublist _).subset inner
    exact RawText.mem_of_mem_trim (List.mem_of_mem_drop between)
  · exact RawText.mem_of_mem_trim inner

theorem clean_path_of_named {path : Option RawText} {name : RawText}
    (named : namedPath path = some name) : ∃ given, path = some given ∧ cleanPath given = name := by
  unfold namedPath at named
  split at named
  · cases named
  · cases named
  · next cleaned found =>
      cases named
      exact Option.map_eq_some_iff.1 found

/-- Standard output takes the line that says where the report has been saved, if that line is
printed there. -/
def Announces (console : Console) (arguments : List RawText) : Prop :=
  ∀ parsed name, grammar.parse arguments = .ok parsed →
    (Invocation.ofParsed parsed).output.isSome = true →
    (Invocation.ofParsed parsed).report = some name → console.refusal? (reportNotice name) = none

theorem strict_announces {arguments : List RawText}
    (plain : ∀ argument ∈ arguments, argument.IsPlain) : Announces .strict arguments := by
  intro parsed name read _ named
  apply Console.strict_takes
  intro point member
  rcases List.mem_append.1 member with notice | inName
  · obtain ⟨char, _, rfl⟩ := List.mem_map.1 notice
    rfl
  · obtain ⟨given, found, rfl⟩ := clean_path_of_named named
    obtain ⟨argument, among, suffix⟩ := parsed_value_stands read found
    exact plain argument among point (suffix.subset (mem_of_mem_clean_path inName))

namespace Outcome

/-- A step goes on with an outcome of the one kind or ends the run with one of the other. -/
def Leads (goesOn ends : Outcome → Prop) : Except Outcome Outcome → Prop
  | .ok done => goesOn done
  | .error ended => ends ended

theorem Leads.bind {first second ends ends' : Outcome → Prop} {step : Except Outcome Outcome}
    {next : Outcome → Except Outcome Outcome} (here : Leads first ends step)
    (early : ∀ ended, ends ended → ends' ended)
    (onward : ∀ done, first done → Leads second ends' (next done)) :
    Leads second ends' (step >>= next) := by
  cases step with
  | ok done => exact onward done here
  | error ended => exact early ended here

theorem Leads.imp {goesOn ends goesOn' ends' : Outcome → Prop} {step : Except Outcome Outcome}
    (leads : Leads goesOn ends step) (onward : ∀ done, goesOn done → goesOn' done)
    (early : ∀ ended, ends ended → ends' ended) : Leads goesOn' ends' step := by
  cases step with
  | ok done => exact onward done leads
  | error ended => exact early ended leads

end Outcome

namespace Invocation

open Outcome

variable (invocation : Invocation)

end Invocation

section

variable {files after : FileTree} {arguments : List RawText} {parsed : Parsed} {options : Options}
  {document : Document} (read : grammar.parse arguments = .ok parsed)
  (checked : (Invocation.ofParsed parsed).options files = .ok options)
  (loaded : (Invocation.ofParsed parsed).document files = .ok document)

include read checked loaded

end

def shelf : FileTree :=
  ⟨[([encode "a.bib".toList], .file (encode "@a\x7bb, c = \x7bd\x7d\x7d".toList))]⟩

end Command

end Bibliography
