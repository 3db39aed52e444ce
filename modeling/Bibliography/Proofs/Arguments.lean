import Bibliography.Arguments

/-!
Where the values of a command line come from. Each stands there as it is taken: it is an argument
of its own, or the end of one behind the switch that it is attached to.
-/

namespace Bibliography.Arguments

open Text

/-- An argument, or the end of one. -/
def Stands (arguments : List RawText) (value : RawText) : Prop :=
  ∃ argument ∈ arguments, value <:+ argument

theorem stands_cons {arguments : List RawText} {value : RawText} (argument : RawText)
    (stands : Stands arguments value) : Stands (argument :: arguments) value := by
  obtain ⟨other, member, suffix⟩ := stands
  exact ⟨other, List.mem_cons_of_mem _ member, suffix⟩

theorem stands_here {argument value : RawText} (arguments : List RawText)
    (suffix : value <:+ argument) : Stands (argument :: arguments) value :=
  ⟨argument, List.mem_cons_self, suffix⟩

/-- What a token can give as a value stands among the arguments. -/
def Token.Stands (arguments : List RawText) : Token → Prop
  | operand text => Arguments.Stands arguments text
  | switch _ reading => ∀ value ∈ reading.attached, Arguments.Stands arguments value
  | _ => True

theorem Token.stands_cons {arguments : List RawText} {token : Token} (argument : RawText)
    (stands : token.Stands arguments) : token.Stands (argument :: arguments) := by
  cases token with
  | operand text => exact Arguments.stands_cons argument stands
  | switch text reading =>
      exact fun value attached => Arguments.stands_cons argument (stands value attached)
  | divider => trivial
  | unknown text => trivial

theorem split_equals_suffix {argument start value : RawText}
    (cut : splitEquals argument = some (start, value)) : value <:+ argument := by
  unfold splitEquals at cut
  split at cut
  · cases cut
  · next mark behind found =>
      cases cut
      exact (List.suffix_cons mark value).trans (found ▸ List.dropWhile_suffix _)

theorem candidate_suffix {grammar : Grammar} {argument : RawText} {reading : Reading}
    (candidate : reading ∈ grammar.candidates argument) {value : RawText}
    (attached : value ∈ reading.attached) : value <:+ argument := by
  unfold Grammar.candidates at candidate
  split at candidate
  · obtain ⟨entry, _, rfl⟩ := List.mem_map.1 candidate
    obtain ⟨⟨start, behind⟩, cut, rfl⟩ := Option.map_eq_some_iff.1 attached
    exact split_equals_suffix cut
  · obtain ⟨entry, _, found⟩ := List.mem_filterMap.1 candidate
    split at found
    · cases found
      cases attached
      exact List.drop_suffix 2 argument
    · split at found
      · cases found
        cases attached
      · cases found

theorem classify_stands {grammar : Grammar} {argument : RawText} {token : Token}
    (read : grammar.classify argument = .ok token) (rest : List RawText) :
    token.Stands (argument :: rest) := by
  have whole : Stands (argument :: rest) argument := stands_here rest List.suffix_rfl
  revert read
  fun_cases Grammar.classify grammar argument with
  | case1 | case3 | case6 =>
      rintro ⟨⟩
      exact whole
  | case2 =>
      rintro ⟨⟩ value ⟨⟩
  | case4 _ _ _ exactly reading named =>
      rintro ⟨⟩ value attached
      obtain ⟨⟨start, behind⟩, cut, switched⟩ := Option.bind_eq_some_iff.1 named
      obtain ⟨found, _, rfl⟩ := Option.map_eq_some_iff.1 switched
      cases attached
      exact stands_here rest (split_equals_suffix cut)
  | case5 _ _ _ _ _ reading only =>
      rintro ⟨⟩ value attached
      have candidate : reading ∈ grammar.candidates argument := by
        rw [only]
        exact List.mem_singleton_self _
      exact stands_here rest (candidate_suffix candidate attached)
  | case7 =>
      rintro ⟨⟩
      trivial
  | case8 =>
      rintro ⟨⟩

theorem tokens_stand {grammar : Grammar} {arguments : List RawText} {tokens : List Token}
    (read : grammar.tokens arguments = .ok tokens) : ∀ token ∈ tokens, token.Stands arguments := by
  induction arguments generalizing tokens with
  | nil =>
      cases read
      exact fun token member => nomatch member
  | cons argument rest induction =>
      unfold Grammar.tokens at read
      split at read
      · cases read
        intro token member
        rcases List.mem_cons.1 member with rfl | later
        · trivial
        · obtain ⟨operand, known, rfl⟩ := List.mem_map.1 later
          exact ⟨operand, List.mem_cons_of_mem _ known, List.suffix_rfl⟩
      · split at read
        · cases read
        · next first classified =>
            split at read
            · cases read
            · next others later =>
                cases read
                intro token member
                rcases List.mem_cons.1 member with rfl | behind
                · exact classify_stands classified rest
                · exact Token.stands_cons argument (induction later token behind)

theorem unjoin_suffix {grammar : Grammar} {switch last : Switch} {text value : RawText}
    {joined : List Switch}
    (read : grammar.unjoin switch text = .ok (joined, .attached last value)) :
    value <:+ text := by
  induction text generalizing switch joined with
  | nil =>
      unfold Grammar.unjoin at read
      split at read
      · cases read
      · cases read
        exact List.suffix_rfl
  | cons letter more induction =>
      unfold Grammar.unjoin at read
      split at read
      · cases read
        exact List.suffix_rfl
      · split at read
        · cases read
        · next other found =>
            split at read
            · cases read
            · cases behind : grammar.unjoin other more with
              | error stop =>
                  rw [behind] at read
                  cases read
              | ok result =>
                  obtain ⟨others, tail⟩ := result
                  rw [behind] at read
                  cases read
                  exact (induction behind).trans (List.suffix_cons letter more)

variable {grammar : Grammar} {arguments : List RawText}

/-- Every value of these switches stands among the arguments. -/
def ValuesStand (arguments : List RawText) (given : List Given) : Prop :=
  ∀ one ∈ given, ∀ value ∈ one.values, Stands arguments value

theorem leading_operands_stand {tokens : List Token}
    (stand : ∀ token ∈ tokens, token.Stands arguments) {value : RawText}
    (leading : value ∈ leadingOperands tokens) : Stands arguments value := by
  obtain ⟨token, member, operand⟩ := List.mem_filterMap.1 leading
  have stands := stand token ((List.takeWhile_prefix _).subset member)
  cases token with
  | operand text =>
      cases operand
      exact stands
  | _ => cases operand

theorem following_values_stand {switch : Switch} {tokens : List Token} {values : List RawText}
    (stand : ∀ token ∈ tokens, token.Stands arguments)
    (read : followingValues switch tokens = .ok values) :
    ∀ value ∈ values, Stands arguments value := by
  have leading (value : RawText) (member : value ∈ leadingOperands tokens) :
      Stands arguments value := leading_operands_stand stand member
  unfold followingValues at read
  generalize leadingOperands tokens = operands at leading read
  split at read <;> cases read
  case h_1 => exact fun value member => nomatch member
  case h_2 => exact fun value member => nomatch member
  all_goals
    intro value member
    apply leading
    simp_all

theorem reading_tail_stands {reading : Reading} {joined : List Switch} {last : Switch}
    {value : RawText} (here : ∀ value ∈ reading.attached, Stands arguments value)
    (read : grammar.readingTail reading = .ok (joined, .attached last value)) :
    Stands arguments value := by
  unfold Grammar.readingTail at read
  split at read
  · cases read
  · next whole attached =>
      split at read
      · cases read
      · obtain ⟨argument, member, suffix⟩ := here whole attached
        exact ⟨argument, member, (unjoin_suffix read).trans suffix⟩

theorem values_stand_joined (joined : List Switch) {last : Given}
    (stand : ∀ value ∈ last.values, Stands arguments value) :
    ValuesStand arguments (joined.map (⟨·, []⟩) ++ [last]) := by
  intro one member
  rcases List.mem_append.1 member with plain | final
  · obtain ⟨switch, _, rfl⟩ := List.mem_map.1 plain
    exact fun value absent => nomatch absent
  · rw [List.mem_singleton.1 final]
    exact stand

theorem switch_parts_stand {reading : Reading} {rest : List Token} {given : List Given}
    {used : Nat} (here : ∀ value ∈ reading.attached, Stands arguments value)
    (behind : ∀ token ∈ rest, token.Stands arguments)
    (read : grammar.switchParts reading rest = .ok (given, used)) :
    ValuesStand arguments given := by
  unfold Grammar.switchParts at read
  split at read
  · cases read
  · next joined tail ended =>
      dsimp only at read
      split at read
      · next last value =>
          cases read
          apply values_stand_joined
          intro other member
          have same : other = value := by
            unfold attachedValues at member
            split at member
            · cases member
            · exact List.mem_singleton.1 member
          exact same ▸ reading_tail_stands here ended
      · split at read
        · cases read
        · next values follow =>
            cases read
            exact values_stand_joined joined (following_values_stand behind follow)

theorem take_switch_stand {reading : Reading} {rest : List Token} {taken next : Taken}
    {used : Nat} (here : ∀ value ∈ reading.attached, Stands arguments value)
    (behind : ∀ token ∈ rest, token.Stands arguments)
    (before : ValuesStand arguments taken.given)
    (read : grammar.takeSwitch reading rest taken = .ok (next, used)) :
    ValuesStand arguments next.given := by
  unfold Grammar.takeSwitch at read
  split at read
  · cases read
  · next given count parts =>
      split at read
      · cases read
      · cases read
        intro one member
        rcases List.mem_append.1 member with old | new
        · exact before one old
        · exact switch_parts_stand here behind parts one new

theorem given_add_operands (taken : Taken) (tokens : List Token) :
    (taken.addOperands tokens).given = taken.given := by
  unfold Taken.addOperands
  split <;> rfl

/-- The loop over the tokens: what is left of them stands, and what has been taken does. -/
theorem take_stand {tokens : List Token} {taken done : Taken}
    (stand : ∀ token ∈ tokens, token.Stands arguments)
    (before : ValuesStand arguments taken.given) (read : grammar.take tokens taken = .ok done) :
    ValuesStand arguments done.given := by
  fun_induction Grammar.take grammar tokens taken with
  | case1 taken =>
      cases read
      exact before
  | case2 taken text rest induction =>
      exact induction (fun token member => stand token (List.mem_cons_of_mem _ member)) before read
  | case3 => cases read
  | case4 taken text reading rest next used parts induction =>
      have behind : ∀ token ∈ rest, token.Stands arguments :=
        fun token member => stand token (List.mem_cons_of_mem _ member)
      have after := take_switch_stand (stand _ List.mem_cons_self) behind before parts
      refine induction (fun token member => ?_) after read
      exact behind token (List.mem_of_mem_drop member)
  | case5 taken token rest _ _ induction =>
      refine induction (fun other member => ?_) ?_ read
      · exact stand other (List.mem_cons_of_mem _ ((List.dropWhile_suffix _).subset member))
      · rw [given_add_operands]
        exact before

/-- A command line makes no value up: each is an argument or the end of one. -/
theorem parsed_value_stands {parsed : Parsed} (read : grammar.parse arguments = .ok parsed)
    {name : Text} {value : RawText} (given : parsed.value? name = some value) :
    Stands arguments value := by
  have stand : ValuesStand arguments parsed.given := by
    unfold Grammar.parse at read
    split at read
    · cases read
    · next tokens told =>
        split at read
        · cases read
        · next taken took =>
            have started : ValuesStand arguments ({} : Taken).given :=
              fun one member => absurd member List.not_mem_nil
            have all := take_stand (tokens_stand told) started took
            split at read <;> cases read
            exact all
  obtain ⟨values, found, first⟩ := Option.bind_eq_some_iff.1 given
  obtain ⟨one, chosen, rfl⟩ := Option.map_eq_some_iff.1 found
  exact stand one (List.mem_reverse.1 (List.mem_of_find?_eq_some chosen)) value
    (List.mem_of_head? first)

end Bibliography.Arguments
