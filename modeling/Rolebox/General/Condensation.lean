import Mathlib.Data.List.Nodup
import Mathlib.Data.List.Perm.Basic

/-! Lists of strongly connected components in which no edge leads to a later component. -/

namespace General
open Relation List
variable {V : Type*} {edge : V → V → Prop} {cs cs' : List (List V)} {c : List V} {v w : V}

def Mutual (edge : V → V → Prop) (v w : V) : Prop :=
  ReflTransGen edge v w ∧ ReflTransGen edge w v

inductive Condensed (edge : V → V → Prop) : List (List V) → Prop where
  | nil : Condensed edge []
  | snoc {cs : List (List V)} {c : List V} (h : Condensed edge cs) (hne : c ≠ [])
      (hnodup : c.Nodup) (hnew : ∀ v ∈ c, v ∉ cs.flatten)
      (hconnected : ∀ v ∈ c, ∀ w ∈ c, ReflTransGen edge v w)
      (hclosed : ∀ v ∈ c, ∀ w, edge v w → w ∈ cs.flatten ∨ w ∈ c) : Condensed edge (cs ++ [c])

theorem mem_flatten_snoc : v ∈ (cs ++ [c]).flatten ↔ v ∈ cs.flatten ∨ v ∈ c := by
  simp only [flatten_append, flatten_singleton, mem_append]

section

variable (h : Condensed edge cs)
include h

theorem Condensed.reach (hv : v ∈ cs.flatten) (hvw : ReflTransGen edge v w) : w ∈ cs.flatten := by
  have hstep : ∀ v w, v ∈ cs.flatten → edge v w → w ∈ cs.flatten := by
    clear hv hvw
    induction h with
    | nil => exact fun v w hv => nomatch hv
    | snoc _ _ _ _ _ hclosed ih =>
      intro v w hv hvw
      rcases mem_flatten_snoc.1 hv with hold | hnew
      · exact mem_flatten_snoc.2 (.inl (ih v w hold hvw))
      · exact mem_flatten_snoc.2 (hclosed v hnew w hvw)
  induction hvw with
  | refl => exact hv
  | tail _ hlast ih => exact hstep _ _ ih hlast

theorem Condensed.nodup : cs.flatten.Nodup := by
  induction h with
  | nil => exact nodup_nil
  | snoc _ _ hnodup hnew _ _ ih =>
    rw [flatten_append, flatten_singleton]
    exact ih.append hnodup fun v hv hvc => hnew v hvc hv

theorem Condensed.class (hc : c ∈ cs) (hv : v ∈ c) : w ∈ c ↔ Mutual edge v w := by
  induction h with
  | nil => exact nomatch hc
  | @snoc cs d h hne hnodup hnew hconnected hclosed ih =>
    rcases mem_append.1 hc with hold | hlast
    · exact ih hold
    obtain rfl := mem_singleton.1 hlast
    refine ⟨fun hw => ⟨hconnected v hv w hw, hconnected w hw v hv⟩, fun hmutual => ?_⟩
    have hall := h.snoc hne hnodup hnew hconnected hclosed
    have hw := hall.reach (mem_flatten_snoc.2 (.inr hv)) hmutual.1
    refine (mem_flatten_snoc.1 hw).resolve_left fun hearlier => ?_
    exact hnew v hv (h.reach hearlier hmutual.2)

theorem Condensed.ne_nil (hc : c ∈ cs) : c ≠ [] := by
  induction h with
  | nil => exact nomatch hc
  | snoc _ hne _ _ _ _ ih =>
    rcases mem_append.1 hc with hold | hlast
    · exact ih hold
    · exact mem_singleton.1 hlast ▸ hne

/-- The components do not depend on how they were found. -/
theorem Condensed.unique (h' : Condensed edge cs')
    (hsame : ∀ v, v ∈ cs.flatten → v ∈ cs'.flatten) (hc : c ∈ cs) : ∃ c' ∈ cs', c.Perm c' := by
  obtain ⟨v, hv⟩ := exists_mem_of_ne_nil c (h.ne_nil hc)
  obtain ⟨c', hc', hv'⟩ := mem_flatten.1 (hsame v (mem_flatten.2 ⟨c, hc, hv⟩))
  refine ⟨c', hc', (perm_ext_iff_of_nodup ?_ ?_).2 fun w => ?_⟩
  · exact (nodup_flatten.1 h.nodup).1 c hc
  · exact (nodup_flatten.1 h'.nodup).1 c' hc'
  · rw [h.class hc hv, h'.class hc' hv']

end

theorem transGen_self_iff (hc : ∀ w, w ∈ c ↔ Mutual edge v w) :
    TransGen edge v v ↔ (∃ w ∈ c, w ≠ v) ∨ edge v v := by
  constructor
  · intro hcycle
    obtain ⟨w, hvw, hback⟩ := TransGen.head'_iff.1 hcycle
    by_cases hw : w = v
    · exact .inr (hw ▸ hvw)
    · exact .inl ⟨w, (hc w).2 ⟨.single hvw, hback⟩, hw⟩
  · rintro (⟨w, hw, hne⟩ | hself)
    · obtain ⟨hto, hback⟩ := (hc w).1 hw
      rcases reflTransGen_iff_eq_or_transGen.1 hto with heq | hpath
      · exact absurd heq hne
      · exact hpath.trans_left hback
    · exact .single hself

end General
