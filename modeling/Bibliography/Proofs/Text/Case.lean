import Bibliography.Proofs.Source.Grammar
import Bibliography.Text.Case

/-!
Lower case settles at once: what has been put in lower case stays as it is, and a
name in lower case is a name. Both come from one check of the table: the images of
a run are valid code points, no run covers them, and none of them is blank. The
check compares runs as intervals and does not go through their code points.
-/

namespace Bibliography.Text

def CaseRun.misses (run : CaseRun) (first last : Nat) : Bool :=
  Nat.blt last run.target || Nat.blt (run.target + (run.last - run.first)) first

/-- Every second code point of the other run has the wrong parity for an image. -/
def CaseRun.alternates (run other : CaseRun) : Bool :=
  (Nat.beq run.step 2 || Nat.beq run.first run.last) && Nat.beq other.step 2 &&
    Nat.beq ((run.target + other.first) % 2) 1

def CaseRun.isValid (run : CaseRun) : Bool :=
  Nat.blt (run.target + (run.last - run.first)) 0xD800 ||
    (Nat.blt 0xDFFF run.target && Nat.blt (run.target + (run.last - run.first)) 0x110000)

/-- The images lie beyond ASCII, with the single exception of the letter k. -/
def CaseRun.isFar (run : CaseRun) : Bool :=
  Nat.ble 128 run.target || (Nat.beq run.first run.last && Nat.beq run.target 107)

def CaseRun.isSettling (run : CaseRun) : Bool :=
  run.isValid && run.isFar && run.misses 304 304 &&
    (blankRanges.all fun range => run.misses range.1 range.2) &&
    lowerRuns.all fun other => run.misses other.first other.last || run.alternates other

theorem lower_runs_settle : lowerRuns.all CaseRun.isSettling = true := by
  decide +kernel

theorem image_range {run : CaseRun} {code : Nat} (covered : run.covers code = true) :
    run.target ≤ run.image code ∧ run.image code ≤ run.target + (run.last - run.first) ∧
      (run.image code - run.target) % run.step = 0 := by
  simp only [CaseRun.covers, Bool.and_eq_true, decide_eq_true_eq, beq_iff_eq] at covered
  obtain ⟨⟨first, last⟩, stride⟩ := covered
  refine ⟨by rw [CaseRun.image]; omega, by rw [CaseRun.image]; omega, ?_⟩
  rw [CaseRun.image, Nat.add_sub_cancel_left]
  exact stride

theorem image_outside {run : CaseRun} {code first last : Nat} (covered : run.covers code = true)
    (missed : run.misses first last = true) :
    ¬ (first ≤ run.image code ∧ run.image code ≤ last) := by
  obtain ⟨above, below, _⟩ := image_range covered
  simp only [CaseRun.misses, Bool.or_eq_true, Nat.blt_eq] at missed
  omega

theorem image_uncovered {run other : CaseRun} {code : Nat} (covered : run.covers code = true)
    (apart : (run.misses other.first other.last || run.alternates other) = true) :
    other.covers (run.image code) = false := by
  apply Bool.eq_false_iff.2
  intro again
  obtain ⟨above, below, stride⟩ := image_range covered
  rcases Bool.or_eq_true_iff.1 apart with missed | alternating
  · simp only [CaseRun.covers, Bool.and_eq_true, decide_eq_true_eq] at again
    exact image_outside covered missed again.1
  · simp only [CaseRun.alternates, Bool.and_eq_true, Bool.or_eq_true, Nat.beq_eq] at alternating
    obtain ⟨⟨short, double⟩, odd⟩ := alternating
    simp only [CaseRun.covers, Bool.and_eq_true, decide_eq_true_eq, beq_iff_eq, double] at again
    rcases short with even | single
    · rw [even] at stride
      omega
    · rw [single] at below
      omega

theorem char_of_valid {code : Nat} (valid : code.isValidChar) : (Char.ofNat code).toNat = code := by
  rw [Char.ofNat, dif_pos valid]
  rfl

theorem ascii_all (holds : Char → Bool)
    (checked : ((List.range 128).all fun code => holds (Char.ofNat code)) = true) {char : Char}
    (small : char.toNat < 128) : holds char = true := by
  have found := List.all_eq_true.1 checked char.toNat (List.mem_range.2 small)
  rwa [Char.ofNat_toNat] at found

theorem small_of_alpha {char : Char} (alpha : char.isAlpha = true) : char.toNat < 128 := by
  have cased : char.isUpper = true ∨ char.isLower = true := Bool.or_eq_true_iff.1 alpha
  have code : char.toNat = char.val.toNat := rfl
  rcases cased with upper | lower
  · have range : char.val ≥ 'A'.val ∧ char.val ≤ 'Z'.val := of_decide_eq_true upper
    have bound : char.val.toNat ≤ 90 := UInt32.le_iff_toNat_le.1 range.2
    omega
  · have range : decide (char.val ≤ 'z'.val) = true := (Bool.and_eq_true_iff.1 lower).2
    have bound : char.val.toNat ≤ 122 := UInt32.le_iff_toNat_le.1 (of_decide_eq_true range)
    omega

theorem word_of_letter {char : Char} (letter : (char.isAlpha || char == '_') = true) :
    isWord char = true := by
  have small : char.toNat < 128 := by
    rcases Bool.or_eq_true_iff.1 letter with alpha | underscore
    · exact small_of_alpha alpha
    · rw [beq_iff_eq] at underscore
      subst underscore
      decide
  have checked := ascii_all (fun char => !(char.isAlpha || char == '_') || isWord char)
    (by decide) small
  simpa [letter] using checked

/-- A character that lower case leaves alone wherever it stands. -/
def Settled (char : Char) : Prop := lowerChar char = [char] ∧ char ≠ 'Σ'

/-- Beyond ASCII only blanks are kept out of names. -/
theorem far_is_name {char : Char} (far : 128 ≤ char.toNat) (solid : isBlank char = false) :
    Source.isNameChar char = true := by
  have apart : ∀ other : Char, other.toNat < 128 → char ≠ other := by
    rintro other small rfl
    omega
  have noMark : Source.isMark char = false := by
    apply Bool.eq_false_iff.2
    intro mark
    simp only [Source.isMark, List.contains_cons, List.contains_nil, Bool.or_false,
      Bool.or_eq_true, beq_iff_eq] at mark
    rcases mark with rfl | rfl | rfl | rfl | rfl | rfl | rfl <;> exact absurd far (by decide)
  simp [Source.isNameChar, Source.isKeyChar, Source.isBareChar, solid, noMark,
    apart '=' (by decide), apart '%' (by decide)]

theorem image_code {run : CaseRun} (valid : run.isValid = true) {code : Nat}
    (covered : run.covers code = true) :
    (Char.ofNat (run.image code)).toNat = run.image code := by
  rcases image_range covered with ⟨above, below, _⟩
  apply char_of_valid
  simp only [CaseRun.isValid, Bool.or_eq_true, Bool.and_eq_true, Nat.blt_eq] at valid
  rcases valid with low | high
  · exact .inl (by omega)
  · exact .inr ⟨by omega, by omega⟩

theorem unmapped_of_uncovered {char : Char}
    (alone : ∀ run ∈ lowerRuns, run.covers char.toNat = false) :
    mapRuns lowerRuns char = char ∧ char ≠ 'Σ' := by
  constructor
  · have none : lowerRuns.find? (fun run => run.covers char.toNat) = none := by
      rw [List.find?_eq_none]
      intro run known covers
      simp [alone run known] at covers
    rw [mapRuns, none]
  · intro same
    subst same
    have mapped : lowerRuns.any (fun run => run.covers ('Σ' : Char).toNat) = true := by decide
    rcases List.any_eq_true.1 mapped with ⟨run, known, covers⟩
    rw [alone run known] at covers
    exact absurd covers (by decide)

theorem image_settled {run : CaseRun} (member : run ∈ lowerRuns) {code : Nat}
    (covered : run.covers code = true) :
    Settled (Char.ofNat (run.image code)) ∧
      Source.isNameChar (Char.ofNat (run.image code)) = true := by
  have settling := List.all_eq_true.1 lower_runs_settle run member
  simp only [CaseRun.isSettling, Bool.and_eq_true] at settling
  rcases settling with ⟨⟨⟨⟨valid, far⟩, notDotted⟩, noBlank⟩, uncovered⟩
  rcases image_range covered with ⟨above, below, stride⟩
  have place := image_code valid covered
  have alone : ∀ other ∈ lowerRuns, other.covers (run.image code) = false := by
    intro other known
    exact image_uncovered covered (List.all_eq_true.1 uncovered other known)
  generalize Char.ofNat (run.image code) = char at place
  rw [← place] at alone
  rcases unmapped_of_uncovered alone with ⟨unmapped, noSigma⟩
  have noDot : char ≠ 'İ' := by
    intro same
    subst same
    have outside := image_outside covered notDotted
    rw [← place] at outside
    exact outside (by decide)
  simp only [CaseRun.isFar, Bool.or_eq_true, Nat.ble_eq, Bool.and_eq_true, Nat.beq_eq] at far
  rcases far with far | ⟨single, letter⟩
  · have large : ¬ char.toNat < 128 := by omega
    refine ⟨⟨?_, noSigma⟩, ?_⟩
    · rw [lowerChar, if_neg large, if_neg noDot, unmapped]
    · apply far_is_name (by omega)
      apply Bool.eq_false_iff.2
      intro blank
      rcases List.any_eq_true.1 blank with ⟨range, listed, inside⟩
      have outside := image_outside covered (List.all_eq_true.1 noBlank range listed)
      rw [← place] at outside
      simp only [Bool.and_eq_true, decide_eq_true_eq] at inside
      exact outside inside
  · -- The Kelvin sign is the only one that has an ASCII letter for its lower case.
    have same : char = 'k' := by
      apply Char.toNat_inj.1
      have code : ('k' : Char).toNat = 107 := rfl
      rw [single] at below
      omega
    subst same
    exact ⟨⟨by decide, noSigma⟩, by decide⟩

theorem settled_sigma : Settled 'ς' ∧ Settled 'σ' := by
  refine ⟨⟨?_, by decide⟩, ?_, by decide⟩ <;> decide +kernel

def lowersSafely (char : Char) : Bool :=
  lowerChar char.toLower == [char.toLower] && char.toLower != 'Σ' &&
    (!Source.isNameChar char || Source.isNameChar char.toLower)

theorem lower_char_settled {char lowered : Char} (noSigma : char ≠ 'Σ')
    (member : lowered ∈ lowerChar char) :
    Settled lowered ∧ (Source.isNameChar char = true → Source.isNameChar lowered = true) := by
  unfold lowerChar at member
  split at member
  · next small =>
      have same := List.mem_singleton.1 member
      subst same
      have found := ascii_all lowersSafely (by decide +kernel) small
      simp only [lowersSafely, Bool.and_eq_true, beq_iff_eq, bne_iff_ne, ne_eq, Bool.or_eq_true,
        Bool.not_eq_true'] at found
      refine ⟨found.1, fun name => ?_⟩
      rcases found.2 with other | same
      · exact absurd name (by simp [other])
      · exact same
  · next large =>
      split at member
      · next dotted =>
          simp only [List.mem_cons, List.not_mem_nil, or_false] at member
          rcases member with rfl | rfl
          · exact ⟨⟨by decide, by decide⟩, fun _ => by decide⟩
          · refine ⟨⟨by decide +kernel, by decide⟩, fun _ => by decide⟩
      · next noDot =>
          have same := List.mem_singleton.1 member
          subst same
          unfold mapRuns
          cases found : lowerRuns.find? fun run => run.covers char.toNat with
          | none =>
              refine ⟨⟨?_, noSigma⟩, id⟩
              rw [lowerChar, if_neg large, if_neg noDot, mapRuns, found]
          | some run =>
              have covered := List.find?_some found
              have image := image_settled (List.mem_of_find?_eq_some found) covered
              exact ⟨image.1, fun _ => image.2⟩

theorem lower_after_settled (afterCased : Bool) (text : Text) :
    (∀ char ∈ lowerAfter afterCased text, Settled char) ∧
      ((∀ char ∈ text, Source.isNameChar char = true) →
        ∀ char ∈ lowerAfter afterCased text, Source.isNameChar char = true) := by
  induction text generalizing afterCased with
  | nil => exact ⟨fun char member => absurd member (by simp [lowerAfter]),
      fun _ char member => absurd member (by simp [lowerAfter])⟩
  | cons first rest induction =>
      have head : ∀ char ∈ (if first = 'Σ' then
          [if afterCased && !startsCased rest then 'ς' else 'σ'] else lowerChar first),
          Settled char ∧ (Source.isNameChar first = true → Source.isNameChar char = true) := by
        intro char member
        split at member
        · have same := List.mem_singleton.1 member
          subst same
          split
          · exact ⟨settled_sigma.1, fun _ => by decide⟩
          · exact ⟨settled_sigma.2, fun _ => by decide⟩
        · next noSigma => exact lower_char_settled noSigma member
      constructor
      · intro char member
        rcases List.mem_append.1 member with here | later
        · exact (head char here).1
        · exact (induction _).1 char later
      · intro names char member
        rcases List.mem_append.1 member with here | later
        · exact (head char here).2 (names first (by simp))
        · exact (induction _).2 (fun other known => names other (by simp [known])) char later

theorem lower_after_of_settled (afterCased : Bool) {text : Text}
    (settled : ∀ char ∈ text, Settled char) : lowerAfter afterCased text = text := by
  induction text generalizing afterCased with
  | nil => rfl
  | cons first rest induction =>
      obtain ⟨same, noSigma⟩ := settled first (by simp)
      rw [lowerAfter, if_neg noSigma, same,
        induction _ fun char member => settled char (by simp [member])]
      rfl

theorem lower_lower (text : Text) : lower (lower text) = lower text :=
  lower_after_of_settled false (lower_after_settled false text).1

theorem lower_eq_nil_iff (text : Text) : lower text = [] ↔ text = [] := by
  cases text with
  | nil => simp [lower, lowerAfter]
  | cons first rest =>
      have some : (if first = 'Σ' then [if false && !startsCased rest then 'ς' else 'σ']
          else lowerChar first) ≠ [] := by
        split
        · simp
        · unfold lowerChar
          split
          · simp
          · split <;> simp
      rw [lower, lowerAfter]
      exact ⟨fun empty => absurd (List.append_eq_nil_iff.1 empty).1 some,
        fun empty => by simp at empty⟩

end Bibliography.Text

namespace Bibliography.Source

open Text

/-- A name in lower case is a name. -/
theorem name_text_lower {name : Text} (named : NameText name) : NameText (lower name) := by
  refine ⟨fun empty => named.1 ((lower_eq_nil_iff name).1 empty), ?_⟩
  exact (lower_after_settled false name).2 named.2

end Bibliography.Source
