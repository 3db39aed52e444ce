import Bibliography.Proofs.Source.Draft
import Bibliography.Proofs.Source.Trace

/-!
Where comments go. A comment belongs to the first block behind it: to the entry if that
block is one, to the front of the document before a preamble or an abbreviation, and to
the back where no block follows. Every list of comments in a document that has been read
holds the comments that belong there, in reading order, and nothing else.
-/

namespace Bibliography

/-- The lists of a document that hold comments. Entries are counted from zero. -/
inductive Home
  | front
  | entry (index : Nat)
  | back
  deriving DecidableEq

namespace Document

def commentsAt (document : Document) : Home → List Text
  | .front => document.commentsBefore
  | .entry index => (document.entries[index]?.map Entry.comments).getD []
  | .back => document.commentsAfter

end Document

namespace Source

open Text

namespace Item

def comment? : Item → Option Text
  | comment text => some text
  | _ => none

def isEntry : Item → Bool
  | entry _ => true
  | _ => false

/-- The home of a comment that stands before these items, with so many entries before it. -/
def home (entries : Nat) : List Item → Home
  | [] => .back
  | .comment _ :: rest => home entries rest
  | .entry _ :: _ => .entry entries
  | .preamble _ :: _ => .front
  | .abbreviation _ :: _ => .front

def homes (entries : Nat) : List Item → List (Text × Home)
  | [] => []
  | .comment text :: rest => (text, home entries rest) :: homes entries rest
  | .entry _ :: rest => homes (entries + 1) rest
  | .preamble _ :: rest => homes entries rest
  | .abbreviation _ :: rest => homes entries rest

theorem map_homes (entries : Nat) (items : List Item) :
    (homes entries items).map Prod.fst = items.filterMap comment? := by
  induction items generalizing entries with
  | nil => rfl
  | cons item rest induction =>
      cases item with
      | comment text => exact congrArg (List.cons text) (induction entries)
      | entry entry => exact induction (entries + 1)
      | preamble value => exact induction entries
      | abbreviation abbreviation => exact induction entries

theorem homes_append (entries : Nat) (front : List Item) (text : Text) (back : List Item) :
    (text, home (entries + front.countP isEntry) back) ∈
      homes entries (front ++ .comment text :: back) := by
  induction front generalizing entries with
  | nil => exact List.mem_cons_self
  | cons item rest induction =>
      cases item with
      | comment other => exact List.mem_cons_of_mem _ (induction entries)
      | preamble value => exact induction entries
      | abbreviation abbreviation => exact induction entries
      | entry entry =>
          have later := induction (entries + 1)
          rw [Nat.add_assoc, Nat.add_comm 1] at later
          rw [List.countP_cons_of_pos rfl]
          exact later

/-- The comments with this home, in reading order. -/
def settled (home : Home) (placed : List (Text × Home)) : List Text :=
  (placed.filter fun comment => comment.2 = home).map Prod.fst

theorem mem_settled (front : List Item) (text : Text) (back : List Item) :
    text ∈ settled (home (front.countP isEntry) back)
      (homes 0 (front ++ .comment text :: back)) := by
  have placed := homes_append 0 front text back
  rw [Nat.zero_add] at placed
  apply List.mem_map.2
  exact ⟨_, List.mem_filter.2 ⟨placed, decide_eq_true rfl⟩, rfl⟩

end Item

namespace Draft

/-- The waiting comments, if this is where they go. -/
def waitingAt (draft : Draft) (destination home : Home) : List Text :=
  if destination = home then draft.waiting else []

theorem comments_at_settle (draft : Draft) (home : Home) :
    draft.settle.document.commentsAt home =
      draft.document.commentsAt home ++ draft.waitingAt .front home := by
  cases home with
  | front => rfl
  | entry index => exact (List.append_nil _).symm
  | back => exact (List.append_nil _).symm

theorem comments_at_finish (draft : Draft) (home : Home) :
    draft.finish.document.commentsAt home =
      draft.document.commentsAt home ++ draft.waitingAt .back home := by
  cases home with
  | front => exact (List.append_nil _).symm
  | entry index => exact (List.append_nil _).symm
  | back => rfl

theorem comments_at_add_entry (draft : Draft) (entry : Entry) (home : Home) :
    (draft.addEntry entry).document.commentsAt home =
      draft.document.commentsAt home ++
        draft.waitingAt (.entry draft.document.entries.length) home := by
  cases home with
  | front => exact (List.append_nil _).symm
  | back => exact (List.append_nil _).symm
  | entry index =>
      unfold waitingAt addEntry
      simp only [Document.commentsAt, Home.entry.injEq]
      rcases Nat.lt_trichotomy index draft.document.entries.length with before | here | behind
      · rw [List.getElem?_append_left before, if_neg (by omega), List.append_nil]
      · subst here
        simp
      · rw [List.getElem?_eq_none (by simp; omega), List.getElem?_eq_none (by omega),
          if_neg (by omega)]
        rfl

theorem comments_at_add_block (draft : Draft) {item : Item} (block : item.comment? = none)
    (home : Home) :
    (draft.add item).document.commentsAt home =
      draft.document.commentsAt home ++
        draft.waitingAt (Item.home draft.document.entries.length [item]) home := by
  cases item with
  | comment text => simp [Item.comment?] at block
  | preamble value => exact comments_at_settle (draft.setPreamble value) home
  | abbreviation abbreviation => exact comments_at_settle (draft.addAbbreviation abbreviation) home
  | entry entry => exact comments_at_add_entry draft entry home

theorem waiting_add_block (draft : Draft) {item : Item} (block : item.comment? = none) :
    (draft.add item).waiting = [] := by
  cases item with
  | comment text => simp [Item.comment?] at block
  | preamble value => rfl
  | abbreviation abbreviation => rfl
  | entry entry => rfl

/-- A block settles the comments before it, and those behind it are counted anew. -/
theorem homes_block (draft : Draft) {item : Item} (block : item.comment? = none)
    (rest : List Item) :
    Item.home draft.document.entries.length (item :: rest) =
        Item.home draft.document.entries.length [item] ∧
      Item.homes draft.document.entries.length (item :: rest) =
        Item.homes (draft.add item).document.entries.length rest := by
  cases item with
  | comment text => simp [Item.comment?] at block
  | preamble value => exact ⟨rfl, rfl⟩
  | abbreviation abbreviation => exact ⟨rfl, rfl⟩
  | entry entry => simp [Item.home, Item.homes, add, addEntry]

/-- Adding items brings home the comments that wait and those among the items. -/
theorem comments_at_add_all (draft : Draft) (items : List Item) (home : Home) :
    (draft.addAll items).finish.document.commentsAt home =
      draft.document.commentsAt home ++
        draft.waitingAt (Item.home draft.document.entries.length items) home ++
        Item.settled home (Item.homes draft.document.entries.length items) := by
  induction items generalizing draft with
  | nil =>
      rw [Item.settled, Item.homes, List.filter_nil, List.map_nil, List.append_nil]
      exact comments_at_finish draft home
  | cons item rest induction =>
      have later := induction (draft.add item)
      change ((draft.add item).addAll rest).finish.document.commentsAt home = _
      rw [later]
      cases kind : item.comment? with
      | some text =>
          obtain rfl : item = .comment text := by
            cases item <;> simp_all [Item.comment?]
          simp only [add, Item.home, Item.homes, Item.settled, waitingAt, List.filter_cons]
          by_cases here : Item.home draft.document.entries.length rest = home <;> simp [here]
      | none =>
          have settles : ∀ destination, (draft.add item).waitingAt destination home = [] := by
            intro destination
            unfold waitingAt
            rw [waiting_add_block draft kind, ite_self]
          rw [comments_at_add_block draft kind, settles, List.append_nil,
            (homes_block draft kind rest).1, (homes_block draft kind rest).2]

theorem comments_at_build (items : List Item) (home : Home) :
    (addAll {} items).finish.document.commentsAt home =
      Item.settled home (Item.homes 0 items) := by
  have whole := comments_at_add_all {} items home
  have empty : ({} : Document).commentsAt home = [] := by cases home <;> rfl
  have idle : ∀ destination, ({} : Draft).waitingAt destination home = [] :=
    fun destination => ite_self []
  rw [empty, idle] at whole
  exact whole

theorem comments_add_block (draft : Draft) {item : Item} (block : item.comment? = none) :
    (draft.add item).document.comments.Perm (draft.document.comments ++ draft.waiting) := by
  apply List.perm_iff_count.2
  intro text
  cases item with
  | comment text => simp [Item.comment?] at block
  | preamble value =>
      simp only [add, settle, setPreamble, Document.comments, List.count_append]
      omega
  | abbreviation abbreviation =>
      simp only [add, settle, addAbbreviation, Document.comments, List.count_append]
      omega
  | entry entry =>
      simp only [add, addEntry, Document.comments, List.flatMap_append, List.flatMap_singleton,
        List.count_append]
      omega

theorem comments_add_all (draft : Draft) (items : List Item) :
    (draft.addAll items).finish.document.comments.Perm
      (draft.document.comments ++ draft.waiting ++ items.filterMap Item.comment?) := by
  induction items generalizing draft with
  | nil =>
      rw [List.filterMap_nil, List.append_nil]
      apply List.Perm.of_eq
      change _ ++ (_ ++ _) = _
      rw [← List.append_assoc]
      rfl
  | cons item rest induction =>
      have later := induction (draft.add item)
      change ((draft.add item).addAll rest).finish.document.comments.Perm _
      apply later.trans
      cases kind : item.comment? with
      | some text =>
          obtain rfl : item = .comment text := by
            cases item <;> simp_all [Item.comment?]
          rw [List.filterMap_cons_some kind]
          apply List.Perm.of_eq
          change draft.document.comments ++ (draft.waiting ++ [text]) ++ _ = _
          simp
      | none =>
          rw [List.filterMap_cons_none kind, waiting_add_block draft kind, List.append_nil]
          exact (comments_add_block draft kind).append_right _

end Draft

end Source

open Source

/-- The comments of a document are those found while its text is read. Each list of them
is a part of the reading order, and each comment is in the list that the first block
behind it decides on. -/
theorem comments_settled {text : Text} {document : Document}
    (parsed : Document.parse text = .ok document) :
    ∃ items, Gives false text items ∧ Trace false text items ∧
      document.comments.Perm (items.filterMap Item.comment?) ∧
      (∀ home, document.commentsAt home = Item.settled home (Item.homes 0 items)) ∧
      (∀ home, (document.commentsAt home).Sublist (items.filterMap Item.comment?)) ∧
      ∀ front comment back, items = front ++ .comment comment :: back →
        comment ∈ document.commentsAt (Item.home (front.countP Item.isEntry) back) := by
  rcases parse_ok_iff.1 parsed with ⟨items, given, built⟩
  have settled : ∀ home, document.commentsAt home = Item.settled home (Item.homes 0 items) := by
    intro home
    rw [← built]
    exact Draft.comments_at_build items home
  refine ⟨items, given, trace_of_gives given, ?_, settled, ?_, ?_⟩
  · rw [← built]
    exact Draft.comments_add_all {} items
  · intro home
    rw [settled, Item.settled, ← Item.map_homes 0]
    exact List.filter_sublist.map Prod.fst
  · intro front comment back parts
    rw [settled, parts]
    exact Item.mem_settled front comment back

def crowdedLines : Text :=
  ("%one\ntwo @string\x7ba = 1\x7d three @comment\x7bfour\n five\x7d @misc\x7bx\x7d six\n" ++
    "@misc\x7by\x7d seven").toList

theorem crowded_comments_settled :
    ∃ document, Document.parse crowdedLines = .ok document ∧
      (document.commentsBefore = ["one".toList, "two".toList] ∧
        document.commentsAt (.entry 0) = ["three".toList, "four".toList, "five".toList] ∧
        document.commentsAt (.entry 1) = ["six".toList] ∧
        document.commentsAfter = ["seven".toList]) ∧
      ∃ items, Gives false crowdedLines items ∧ Trace false crowdedLines items ∧
        document.comments.Perm (items.filterMap Item.comment?) ∧
        (∀ home, document.commentsAt home = Item.settled home (Item.homes 0 items)) ∧
        (∀ home, (document.commentsAt home).Sublist (items.filterMap Item.comment?)) ∧
        ∀ front comment back, items = front ++ .comment comment :: back →
          comment ∈ document.commentsAt (Item.home (front.countP Item.isEntry) back) := by
  have passed : passes (Document.parse crowdedLines) (fun document =>
      decide (document.commentsBefore = ["one".toList, "two".toList] ∧
        document.commentsAt (.entry 0) = ["three".toList, "four".toList, "five".toList] ∧
        document.commentsAt (.entry 1) = ["six".toList] ∧
        document.commentsAfter = ["seven".toList])) = true := by
    decide +kernel
  rcases ok_of_passes passed with ⟨document, parsed, found⟩
  exact ⟨document, parsed, of_decide_eq_true found, comments_settled parsed⟩

end Bibliography
