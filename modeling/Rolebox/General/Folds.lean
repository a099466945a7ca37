import Mathlib.Data.List.Forall2

/-! Pointwise relations of lists under updates, and invariants of fallible folds. -/

namespace General
open List
variable {α β ε : Type*}
variable {R : α → β → Prop} {l : List α} {l' : List β} {i : Nat} {b : β} {f : β → α → Except ε β}

section

variable (h : Forall₂ R l l')
include h

theorem forall₂_set (hb : ∀ a, l[i]? = some a → R a b) : Forall₂ R l (l'.set i b) := by
  induction h generalizing i with
  | nil => exact .nil
  | cons hr ht ih =>
    cases i with
    | zero => exact .cons (hb _ rfl) ht
    | succ i => exact .cons hr (ih fun a ha => hb a (by simpa using ha))

theorem forall₂_modify {f : β → β} (hb : ∀ a b, l[i]? = some a → R a b → R a (f b)) :
    Forall₂ R l (l'.modify i f) := by
  induction h generalizing i with
  | nil => simp
  | cons hr ht ih =>
    cases i with
    | zero => exact .cons (hb _ _ rfl hr) ht
    | succ i => exact .cons hr (ih fun a b ha => hb a b (by simpa using ha))

theorem forall₂_getElem? {a : α} (ha : l[i]? = some a) : ∃ b, l'[i]? = some b ∧ R a b := by
  induction h generalizing i with
  | nil => cases ha
  | cons hr _ ih =>
    cases i with
    | zero =>
      cases Option.some.inj ha
      exact ⟨_, rfl, hr⟩
    | succ i => exact ih (by simpa using ha)

theorem forall₂_map_eq {γ : Type*} {f : α → γ} {g : β → γ} (hfg : ∀ a b, R a b → g b = f a) :
    l'.map g = l.map f := by
  induction h with
  | nil => rfl
  | cons hr _ ih => rw [map_cons, map_cons, ih, hfg _ _ hr]

theorem forall₂_flatMap_eq {γ : Type*} {f : α → List γ} {g : β → List γ}
    (hfg : ∀ a b, R a b → f a = g b) : l.flatMap f = l'.flatMap g := by
  induction h with
  | nil => rfl
  | cons hr _ ih => rw [flatMap_cons, flatMap_cons, ih, hfg _ _ hr]

theorem forall₂_exists_left (hb : b ∈ l') : ∃ a ∈ l, R a b := by
  induction h with
  | nil => cases hb
  | cons hr _ ih =>
    rcases mem_cons.1 hb with rfl | hb
    · exact ⟨_, .head _, hr⟩
    · obtain ⟨a, ha, hab⟩ := ih hb
      exact ⟨a, mem_cons_of_mem _ ha, hab⟩

theorem forall₂_mem_right {S : α → β → Prop}
    (hS : ∀ a, ∀ b ∈ l', R a b → S a b) : Forall₂ S l l' := by
  induction h with
  | nil => exact .nil
  | cons hr _ ih =>
    exact .cons (hS _ _ (.head _) hr)
      (ih fun a b hb => hS a b (.tail _ hb))

theorem find?_forall₂ {p : α → Bool} {q : β → Bool} (hpq : ∀ a b, R a b → q b = p a) :
    Option.Rel R (l.find? p) (l'.find? q) := by
  induction h with
  | nil => exact .none
  | @cons a b l l' hr _ ih =>
    have hsame := hpq a b hr
    cases hp : p a with
    | true =>
      rw [find?_cons_of_pos hp, find?_cons_of_pos (hsame.trans hp)]
      exact .some hr
    | false =>
      rw [find?_cons_of_neg (by simp [hp]), find?_cons_of_neg (by simp [hsame, hp])]
      exact ih

end

theorem map_filterMap_sublist {κ : Type*} {f : α → Option β} {g : β → κ} {key : α → κ}
    (h : ∀ a ∈ l, ∀ b, f a = some b → g b = key a) :
    ((l.filterMap f).map g).Sublist (l.map key) := by
  induction l with
  | nil => exact .slnil
  | cons a l ih =>
    have hrest := ih fun c hc => h c (.tail _ hc)
    cases hf : f a with
    | none =>
      rw [filterMap_cons_none hf, map_cons]
      exact hrest.cons _
    | some b =>
      rw [filterMap_cons_some hf, map_cons, map_cons, h a (.head _) b hf]
      exact hrest.cons_cons _

section Sequencing
variable {γ δ : Type} {err : Type*}
variable {x : Except err γ} {f : γ → Except err δ} {d : δ} {c : γ} {l : List γ}

theorem ok_bind (c : γ) (f : γ → Except err δ) : (Except.ok c >>= f) = f c := rfl

theorem bind_eq_ok : (x >>= f) = .ok d ↔ ∃ c, x = .ok c ∧ f c = .ok d := by
  cases x with
  | error e => simp [bind, Except.bind]
  | ok c => simp [ok_bind]

theorem map_eq_ok {f : γ → δ} : x.map f = .ok d ↔ ∃ c, x = .ok c ∧ f c = d := by
  cases x <;> simp [Except.map]

theorem mapError_eq_ok {err' : Type*} {f : err → err'} : x.mapError f = .ok c ↔ x = .ok c := by
  cases x <;> simp [Except.mapError]

theorem toOption_eq_some : x.toOption = some c ↔ x = .ok c := by
  cases x <;> simp [Except.toOption]

theorem forM_ok {f : γ → Except err Unit} (h : ∀ c ∈ l, f c = .ok ()) : l.forM f = .ok () := by
  induction l with
  | nil => rfl
  | cons c l ih =>
    change (f c >>= fun _ => l.forM f) = .ok ()
    rw [h c (.head _), ok_bind]
    exact ih fun d hd => h d (.tail _ hd)

theorem mapM_ok {g : γ → δ} (h : ∀ c ∈ l, f c = .ok (g c)) : l.mapM f = .ok (l.map g) := by
  induction l with
  | nil => rfl
  | cons c l ih =>
    rw [mapM_cons, h c (.head _), ok_bind, ih fun d hd => h d (.tail _ hd)]
    rfl

theorem mapM_ok_mem {ds : List δ} (h : l.mapM f = .ok ds) (hc : c ∈ l) : ∃ d ∈ ds, f c = .ok d := by
  induction l generalizing ds with
  | nil => cases hc
  | cons head l ih =>
    rw [mapM_cons] at h
    obtain ⟨d, hd, hrest⟩ := bind_eq_ok.1 h
    obtain ⟨rest, hl, hds⟩ := bind_eq_ok.1 hrest
    obtain rfl : ds = d :: rest := by cases hds; rfl
    rcases mem_cons.1 hc with rfl | hc
    · exact ⟨d, mem_cons_self, hd⟩
    · obtain ⟨e, he, hfe⟩ := ih hl hc
      exact ⟨e, mem_cons_of_mem _ he, hfe⟩

theorem mem_mapM_ok {ds : List δ} (h : l.mapM f = .ok ds) (hd : d ∈ ds) : ∃ c ∈ l, f c = .ok d := by
  induction l generalizing ds with
  | nil =>
    obtain rfl : [] = ds := Except.ok.inj h
    cases hd
  | cons head l ih =>
    rw [mapM_cons] at h
    obtain ⟨first, hfirst, hrest⟩ := bind_eq_ok.1 h
    obtain ⟨rest, hl, hds⟩ := bind_eq_ok.1 hrest
    obtain rfl : ds = first :: rest := by cases hds; rfl
    rcases mem_cons.1 hd with rfl | hd
    · exact ⟨head, .head _, hfirst⟩
    · obtain ⟨c, hc, hfc⟩ := ih hl hd
      exact ⟨c, mem_cons_of_mem _ hc, hfc⟩

theorem mapM_error_mem {e : err} (h : l.mapM f = .error e) : ∃ c ∈ l, f c = .error e := by
  induction l with
  | nil => exact nomatch h
  | cons head l ih =>
    rw [mapM_cons] at h
    cases hhead : f head with
    | error e' =>
      rw [hhead] at h
      change Except.error e' = Except.error e at h
      obtain rfl := Except.error.inj h
      exact ⟨head, .head _, hhead⟩
    | ok d =>
      rw [hhead, ok_bind] at h
      cases hl : l.mapM f with
      | error e' =>
        rw [hl] at h
        change Except.error e' = Except.error e at h
        obtain rfl := Except.error.inj h
        obtain ⟨c, hc, hfc⟩ := ih hl
        exact ⟨c, mem_cons_of_mem _ hc, hfc⟩
      | ok ds =>
        rw [hl, ok_bind] at h
        exact nomatch h

end Sequencing

theorem foldlM_invariant {I : β → Prop} {b' : β}
    (hstep : ∀ b a b', a ∈ l → I b → f b a = .ok b' → I b') (h : l.foldlM f b = .ok b') (hb : I b) :
    I b' := by
  induction l generalizing b with
  | nil =>
    cases h
    exact hb
  | cons a l ih =>
    rw [foldlM_cons] at h
    cases hf : f b a with
    | error e =>
      rw [hf] at h
      cases h
    | ok c =>
      rw [hf] at h
      exact ih (fun b a b' ha => hstep b a b' (.tail _ ha)) h
        (hstep b a c (.head _) hb hf)

theorem foldlM_ok {I : β → Prop} (hstep : ∀ b a, a ∈ l → I b → ∃ b', f b a = .ok b' ∧ I b')
    (hb : I b) : ∃ b', l.foldlM f b = .ok b' ∧ I b' := by
  induction l generalizing b with
  | nil => exact ⟨b, rfl, hb⟩
  | cons a l ih =>
    obtain ⟨c, hc, hIc⟩ := hstep b a (.head _) hb
    obtain ⟨d, hd, hId⟩ := ih (fun b a ha => hstep b a (.tail _ ha)) hIc
    refine ⟨d, ?_, hId⟩
    rw [foldlM_cons, hc]
    exact hd

theorem foldlM_ok_mem {b' : β} (h : l.foldlM f b = .ok b') {a : α} (ha : a ∈ l) :
    ∃ c c', f c a = .ok c' := by
  induction l generalizing b with
  | nil => cases ha
  | cons head l ih =>
    rw [foldlM_cons] at h
    cases hf : f b head with
    | error e =>
      rw [hf] at h
      cases h
    | ok c =>
      rw [hf] at h
      rcases mem_cons.1 ha with rfl | ha
      · exact ⟨b, c, hf⟩
      · exact ih h ha

theorem foldlM_eq {g : β → α → β} (h : ∀ b, ∀ a ∈ l, f b a = .ok (g b a)) (b : β) :
    l.foldlM f b = .ok (l.foldl g b) := by
  induction l generalizing b with
  | nil => rfl
  | cons a l ih =>
    rw [foldlM_cons, h b a (.head _), foldl_cons]
    exact ih (fun b a' ha => h b a' (.tail _ ha)) (g b a)

/-- Where the steps of some elements always fail, the first such element decides a fold. -/
theorem foldlM_find? {p : α → Bool} {fails : α → ε}
    (hok : ∀ b, ∀ a ∈ l, p a = false → ∃ b', f b a = .ok b')
    (herror : ∀ b, ∀ a ∈ l, p a = true → f b a = .error (fails a)) (b : β) :
    (l.find? p = none → ∃ b', l.foldlM f b = .ok b') ∧
      ∀ a, l.find? p = some a → l.foldlM f b = .error (fails a) := by
  induction l generalizing b with
  | nil => exact ⟨fun _ => ⟨b, rfl⟩, nofun⟩
  | cons a l ih =>
    rw [foldlM_cons]
    cases hp : p a with
    | true =>
      rw [find?_cons_of_pos hp, herror b a (.head _) hp]
      constructor
      · intro hnone
        cases hnone
      · intro a' ha'
        cases ha'
        rfl
    | false =>
      obtain ⟨c, hc⟩ := hok b a (.head _) hp
      rw [find?_cons_of_neg (by simp [hp]), hc]
      exact ih (fun b a' ha => hok b a' (.tail _ ha))
        (fun b a' ha => herror b a' (.tail _ ha)) c

theorem flatMap_ite (p : α → Prop) [DecidablePred p] (f : α → List β) (l : List α) :
    (l.flatMap fun a => if p a then f a else []) = (l.filter fun a => p a).flatMap f := by
  induction l with
  | nil => rfl
  | cons a l ih =>
    rw [flatMap_cons, ih]
    by_cases ha : p a
    · rw [if_pos ha, filter_cons_of_pos (by simpa using ha), flatMap_cons]
    · rw [if_neg ha, filter_cons_of_neg (by simpa using ha), nil_append]

theorem flatMap_single [DecidableEq α] (f : α → List β) (a : α) (h : l.Nodup) :
    (l.flatMap fun b => if b = a then f b else []) = if a ∈ l then f a else [] := by
  induction l with
  | nil => rfl
  | cons b l ih =>
    obtain ⟨hb, hl⟩ := nodup_cons.1 h
    rw [flatMap_cons, ih hl]
    by_cases hba : b = a
    · subst hba
      rw [if_pos rfl, if_neg hb, if_pos mem_cons_self, append_nil]
    · have hmem : a ∈ b :: l ↔ a ∈ l := by simp [Ne.symm hba]
      rw [if_neg hba, nil_append]
      simp only [hmem]

theorem flatMap_filter_key_perm {κ : Type*} [DecidableEq κ] (key : α → κ) (l : List α) :
    ((l.map key).eraseDups.flatMap fun k => l.filter fun a => key a = k).Perm l := by
  induction hlength : l.length using Nat.strongRecOn generalizing l with
  | ind n ih =>
    cases l with
    | nil => exact .refl _
    | cons a l =>
      have hothers : (l.map key).filter (fun k => !k == key a) =
          (l.filter fun b => key b ≠ key a).map key := by
        rw [filter_map]
        refine congrArg (List.map key) (filter_congr fun b _ => ?_)
        by_cases hb : key b = key a
        · simp [hb]
        · simp [hb]
      have hshorter : (l.filter fun b => key b ≠ key a).length < n := by
        have hle := length_filter_le (fun b => decide (key b ≠ key a)) l
        simp only [length_cons] at hlength
        omega
      have hrest := ih _ hshorter (l.filter fun b => key b ≠ key a) rfl
      rw [map_cons, eraseDups_cons, hothers, flatMap_cons]
      refine Perm.trans (Perm.append_left _ (Perm.trans (.of_eq ?_) hrest)) ?_
      · -- the members under another key are the same with and without the first key's
        refine flatMap_congr fun k hk => ?_
        have hne : k ≠ key a := by
          obtain ⟨b, hb, rfl⟩ := mem_map.1 (mem_eraseDups.1 hk)
          exact of_decide_eq_true (mem_filter.1 hb).2
        rw [filter_cons_of_neg (by simpa using hne.symm), filter_filter]
        refine filter_congr fun b _ => ?_
        by_cases hb : key b = k
        · simp [hb, hne]
        · simp [hb]
      · have hsplit := filter_append_perm (fun b => decide (key b = key a)) (a :: l)
        have hnot : (a :: l).filter (fun b => !decide (key b = key a)) =
            l.filter fun b => key b ≠ key a := by
          rw [filter_cons_of_neg (by simp)]
          refine filter_congr fun b _ => ?_
          simp
        rwa [hnot] at hsplit

end General
