import Mathlib.Data.List.Chain
import Mathlib.Data.List.Nodup
import Mathlib.Data.List.Perm.Subperm
import Mathlib.Algebra.BigOperators.Group.List.Basic
import Mathlib.Algebra.GroupWithZero.Nat

/-! Acyclic successor functions, and how often tokens can be replaced by tokens at successors. -/

namespace General.Digraph
open List
variable {V : Type*}
variable {k : ℕ} {v : V}

def Edge (next : V → List V) (v w : V) : Prop := w ∈ next v

def Acyclic (next : V → List V) : Prop :=
  ∀ v, ¬ Relation.TransGen (Edge next) v v

/-- The tokens one token at `v` can still become in at most `k` replacements, itself included. -/
def weight (next : V → List V) : ℕ → V → ℕ
  | 0, _ => 0
  | k + 1, v => 1 + ((next v).map (weight next k)).sum

def HasWalk (next : V → List V) : ℕ → V → Prop
  | 0, _ => True
  | k + 1, v => ∃ w ∈ next v, HasWalk next k w

variable {next : V → List V}

theorem acyclic_of_rank (rank : V → ℕ) (h : ∀ v, ∀ w ∈ next v, rank v < rank w) : Acyclic next := by
  have hlt : ∀ v w, Relation.TransGen (Edge next) v w → rank v < rank w := by
    intro v w hvw
    induction hvw with
    | single he => exact h _ _ he
    | tail _ he ih => exact ih.trans (h _ _ he)
  exact fun v hv => lt_irrefl _ (hlt v v hv)

theorem HasWalk.exists_chain (h : HasWalk next k v) :
    ∃ l : List V, l.length = k ∧ (∀ u ∈ l, next u ≠ []) ∧
      ∃ z, List.IsChain (Edge next) (l ++ [z]) ∧ (l ++ [z]).head? = some v := by
  induction k generalizing v with
  | zero => exact ⟨[], rfl, by simp, v, by simp, rfl⟩
  | succ k ih =>
    obtain ⟨w, hw, hk⟩ := h
    obtain ⟨l, hl, hne, z, hc, hhead⟩ := ih hk
    refine ⟨v :: l, by simp [hl], ?_, z, ?_, rfl⟩
    · intro u hu
      rcases mem_cons.1 hu with rfl | hu
      · exact ne_nil_of_mem hw
      · exact hne u hu
    · rw [cons_append, isChain_cons]
      refine ⟨fun y hy => ?_, hc⟩
      rw [hhead] at hy
      exact Option.some.inj hy ▸ hw

theorem Acyclic.walk_length_le (h : Acyclic next) {vs : List V} (hvs : ∀ v, next v ≠ [] → v ∈ vs)
    (hw : HasWalk next k v) : k ≤ vs.length := by
  obtain ⟨l, hl, hne, z, hc, -⟩ := hw.exists_chain
  have hp : List.Pairwise (Relation.TransGen (Edge next)) l :=
    (isChain_iff_pairwise.1 ((hc.left_of_append).imp fun _ _ => .single))
  have hn : l.Nodup := hp.imp fun {a b} hab => by
    rintro rfl
    exact h a hab
  rw [← hl]
  exact (hn.subperm fun u hu => hvs u (hne u hu)).length_le

theorem weight_stable (h : ¬ HasWalk next k v) : weight next (k + 1) v = weight next k v := by
  induction k generalizing v with
  | zero => exact absurd trivial h
  | succ k ih =>
    have hs : (next v).map (weight next (k + 1)) = (next v).map (weight next k) :=
      map_congr_left fun w hw => ih fun hk => h ⟨w, hw, hk⟩
    rw [weight, weight, hs]

theorem Acyclic.weight_eq (h : Acyclic next) (vs : List V)
    (hvs : ∀ v, next v ≠ [] → v ∈ vs) (v : V) :
    weight next (vs.length + 1) v = 1 + ((next v).map (weight next (vs.length + 1))).sum := by
  have hno : ¬ HasWalk next (vs.length + 1) v := fun hw => by
    have := h.walk_length_le hvs hw
    omega
  rw [← weight_stable hno]
  rfl

end General.Digraph
