import Bibliography.Source.Draft

/-!
Drafts built from items. Items can be added in two goes, and a draft does not look at
what it has collected already: a document put in front of it stays in front.
-/

namespace Bibliography

/-- Two documents one behind the other, list by list. The first preamble counts. -/
def Document.append (front back : Document) : Document where
  preamble := front.preamble.or back.preamble
  abbreviations := front.abbreviations ++ back.abbreviations
  commentsBefore := front.commentsBefore ++ back.commentsBefore
  commentsAfter := front.commentsAfter ++ back.commentsAfter
  entries := front.entries ++ back.entries

namespace Source.Draft

theorem add_all_append (draft : Draft) (front back : List Item) :
    draft.addAll (front ++ back) = (draft.addAll front).addAll back :=
  List.foldl_append ..

theorem add_all_cons (draft : Draft) (item : Item) (items : List Item) :
    draft.addAll (item :: items) = (draft.add item).addAll items := rfl

theorem preamble_add_all (draft : Draft) (items : List Item) :
    (draft.addAll items).document.preamble = none ↔
      draft.document.preamble = none ∧ items.any Item.isPreamble = false := by
  induction items generalizing draft with
  | nil => simp [addAll]
  | cons item rest induction =>
      rw [add_all_cons, induction]
      cases item with
      | preamble value => simp [add, settle, setPreamble, Item.isPreamble]
      | comment text => simp [add, Item.isPreamble]
      | abbreviation abbreviation => simp [add, settle, addAbbreviation, Item.isPreamble]
      | entry entry => simp [add, addEntry, Item.isPreamble]

theorem add_all_comments (draft : Draft) (comments : List Text) :
    draft.addAll (comments.map Item.comment) =
      { draft with waiting := draft.waiting ++ comments } := by
  induction comments generalizing draft with
  | nil => simp [addAll]
  | cons comment rest induction =>
      have later := induction (draft.add (.comment comment))
      rw [List.map_cons, addAll, List.foldl_cons, ← addAll, later]
      simp [add]

/-- A draft with a document in front of its own. -/
def behind (front : Document) (draft : Draft) : Draft :=
  ⟨draft.waiting, front.append draft.document⟩

theorem add_behind {front : Document} {item : Item}
    (single : front.preamble = none ∨ item.isPreamble = false) (draft : Draft) :
    (behind front draft).add item = behind front (draft.add item) := by
  cases item with
  | comment text => rfl
  | preamble value =>
      have none : front.preamble = none := by
        rcases single with none | other
        · exact none
        · simp [Item.isPreamble] at other
      simp [behind, add, settle, setPreamble, Document.append, none]
  | abbreviation abbreviation =>
      simp [behind, add, settle, addAbbreviation, Document.append]
  | entry entry => simp [behind, add, addEntry, Document.append]

theorem add_all_behind {front : Document} {items : List Item}
    (single : front.preamble = none ∨ items.any Item.isPreamble = false) (draft : Draft) :
    (behind front draft).addAll items = behind front (draft.addAll items) := by
  induction items generalizing draft with
  | nil => rfl
  | cons item rest induction =>
      have apart : (front.preamble = none ∨ item.isPreamble = false) ∧
          (front.preamble = none ∨ rest.any Item.isPreamble = false) := by
        rw [List.any_cons, Bool.or_eq_false_iff] at single
        exact ⟨single.imp_right And.left, single.imp_right And.right⟩
      change ((behind front draft).add item).addAll rest =
        behind front ((draft.add item).addAll rest)
      rw [add_behind apart.1, induction apart.2]

theorem finish_behind (front : Document) (draft : Draft) :
    (behind front draft).finish.document = front.append draft.finish.document := by
  simp [behind, finish, Document.append]

end Source.Draft

end Bibliography
