import Mathlib.Data.List.TakeWhile

/-! Keys of several parts joined by a separator, and the cut at the first separator. -/

namespace General
variable {α : Type*} [DecidableEq α]

def joinAt (sep : α) (left right : List α) : List α := left ++ sep :: right

def cutAt (sep : α) : List α → Option (List α × List α)
  | [] => none
  | a :: l => if a = sep then some ([], l) else (cutAt sep l).map fun cut => (a :: cut.1, cut.2)

variable {sep : α} {left right left' right' l : List α}

theorem cutAt_some (h : cutAt sep l = some (left, right)) :
    l = joinAt sep left right ∧ sep ∉ left := by
  induction l generalizing left with
  | nil => cases h
  | cons a l ih =>
    unfold cutAt at h
    split at h
    · next ha =>
      cases h
      exact ⟨by rw [ha]; rfl, List.not_mem_nil⟩
    · next ha =>
      obtain ⟨⟨before, after⟩, hcut, hparts⟩ := Option.map_eq_some_iff.1 h
      cases hparts
      obtain ⟨hl, hsep⟩ := ih hcut
      refine ⟨by rw [hl]; rfl, ?_⟩
      intro hmem
      rcases List.mem_cons.1 hmem with hsame | hmem
      · exact ha hsame.symm
      · exact hsep hmem

theorem cutAt_joinAt (h : sep ∉ left) (right : List α) :
    cutAt sep (joinAt sep left right) = some (left, right) := by
  induction left with
  | nil => simp [joinAt, cutAt]
  | cons a left ih =>
    have ha : a ≠ sep := fun hsame => h (hsame ▸ .head _)
    have hleft := ih fun hmem => h (.tail _ hmem)
    show (if a = sep then _ else (cutAt sep (joinAt sep left right)).map _) = _
    rw [if_neg ha, hleft]
    rfl

theorem joinAt_inj (h : sep ∉ left) (h' : sep ∉ left')
    (hsame : joinAt sep left right = joinAt sep left' right') : left = left' ∧ right = right' := by
  have hcut := cutAt_joinAt h right
  rw [hsame, cutAt_joinAt h' right'] at hcut
  exact ⟨(congrArg Prod.fst (Option.some.inj hcut)).symm,
    (congrArg Prod.snd (Option.some.inj hcut)).symm⟩

end General
