import Rolebox.General.Condensation
import Rolebox.Graph.Compiler.Topology

/-! The components the search closes are the classes of mutually reachable nodes. -/

namespace Rolebox.Graph
open General Relation List

namespace TarjanState

def num (s : TarjanState) (v : String) : Nat := (s.indices.lookup v).getD 0

def Kept (s s' : TarjanState) : Prop := ∀ v, s.indices.lookup v ≠ none →
  s'.indices.lookup v = s.indices.lookup v ∧ s'.lowlink.lookup v = s.lowlink.lookup v

abbrev Leads (adj : String → List String) : String → String → Prop :=
  ReflTransGen fun v w => w ∈ adj v

section Search
variable (adj : String → List String) (nodes gray : List String)

/-- The search between two visits, `gray` the nodes entered and not left: a node on the stack is
reached from those below it and leads to a gray one not above it. -/
structure Searching (s : TarjanState) : Prop where
  onStack : ∀ v, v ∈ s.onStack ↔ v ∈ s.stack
  visited : ∀ v, s.indices.lookup v ≠ none ↔ v ∈ s.stack ∨ v ∈ s.components.flatten
  unclosed : ∀ v ∈ s.stack, v ∉ s.components.flatten
  known : ∀ v, s.indices.lookup v ≠ none → v ∈ nodes
  below : ∀ v, s.indices.lookup v ≠ none → s.num v < s.index
  ordered : s.stack.Pairwise fun v w =>
    s.num w < s.num v ∧ Leads adj w v
  entered : ∀ v ∈ gray, v ∈ s.stack
  scanned : ∀ v, s.indices.lookup v ≠ none → v ∉ gray → ∀ w ∈ adj v, s.indices.lookup w ≠ none
  back : ∀ v ∈ s.stack, ∃ x ∈ gray, s.num x ≤ s.num v ∧
    Leads adj v x
  condensed : Condensed (fun v w => w ∈ adj v) s.components

/-- No edge from `vs` leads to what is below `low` on the stack, and `node` leads to that node. -/
structure Lowest (s : TarjanState) (node : String) (vs : String → Prop) (low : Nat) : Prop where
  bound : ∀ v, vs v → ∀ w ∈ adj v, w ∈ s.stack → low ≤ s.num w
  attained : s.index ≤ low ∨ ∃ w ∈ s.stack, s.num w = low ∧
    Leads adj node w

structure Visited (s : TarjanState) (node : String) (s' : TarjanState) : Prop where
  searching : Searching adj nodes gray s'
  kept : s.Kept s'
  found : s'.indices.lookup node ≠ none
  low : ∃ above low, s'.stack = above ++ s.stack ∧ s'.lowlink.lookup node = some low ∧
    Lowest adj s node (· ∈ above) low

structure Scanning (s : TarjanState) (node : String) (seen : List String) (s' : TarjanState) :
    Prop where
  searching : Searching adj nodes (node :: gray) s'
  kept : s.Kept s'
  index : s'.indices.lookup node = some s.index
  found : ∀ w ∈ seen, s'.indices.lookup w ≠ none
  low : ∃ above low, s'.stack = above ++ node :: s.stack ∧ s'.lowlink.lookup node = some low ∧
    low ≤ s.index ∧ Lowest adj s node (· ∈ above) low ∧
    ∀ w ∈ seen, w ∈ s.stack → low ≤ s.num w

end Search

variable {adj : String → List String} {nodes gray seen : List String}
variable {s s' t : TarjanState} {node v w : String}

theorem Kept.num (h : s.Kept s') (hv : s.indices.lookup v ≠ none) : s'.num v = s.num v := by
  rw [TarjanState.num, (h v hv).1, TarjanState.num]

theorem Kept.visited (h : s.Kept s') (hv : s.indices.lookup v ≠ none) :
    s'.indices.lookup v ≠ none :=
  (h v hv).1 ▸ hv

theorem num_of_lookup {n : Nat} (h : s.indices.lookup v = some n) : s.num v = n := by
  rw [num, h, Option.getD_some]

section

variable (h : Searching adj nodes gray s)
include h

theorem Searching.mem_visited (hv : v ∈ s.stack) : s.indices.lookup v ≠ none :=
  (h.visited v).2 (.inl hv)

theorem Searching.reaches (hv : v ∈ s.stack) (hw : w ∈ s.stack)
    (hle : s.num v ≤ s.num w) : Leads adj v w := by
  let R : String → String → Prop := fun v w =>
    (s.num v ≤ s.num w → Leads adj v w) ∧ (s.num w ≤ s.num v → Leads adj w v)
  have hsymm : Std.Symm R := ⟨fun _ _ h => h.symm⟩
  have hall : s.stack.Pairwise R :=
    h.ordered.imp fun hlt => ⟨fun hle => absurd hlt.1 (Nat.not_lt.2 hle), fun _ => hlt.2⟩
  exact (hall.forall_of_forall (fun _ _ => ⟨fun _ => .refl, fun _ => .refl⟩) hv hw).1 hle

theorem Searching.lower (node : String) (value : Nat) :
    Searching adj nodes gray (s.lower node value) :=
  ⟨h.onStack, h.visited, h.unclosed, h.known, h.below, h.ordered, h.entered, h.scanned, h.back,
    h.condensed⟩

end

theorem lookup_enter (h : v ≠ node) : (s.enter node).indices.lookup v = s.indices.lookup v :=
  lookup_assign_ne _ _ h

theorem num_enter (h : v ≠ node) : (s.enter node).num v = s.num v := by
  rw [num, lookup_enter h, num]

theorem num_enter_self : (s.enter node).num node = s.index := num_of_lookup (lookup_assign_self ..)

theorem Searching.enter (h : Searching adj nodes gray s) (hnode : node ∈ nodes)
    (hnew : s.indices.lookup node = none) (hgray : ∀ x ∈ gray, Leads adj x node) :
    Scanning adj nodes gray s node [] (s.enter node) := by
  have hne : ∀ v, s.indices.lookup v ≠ none → v ≠ node := fun v hv heq => hv (heq ▸ hnew)
  have hstack : ∀ v ∈ s.stack, v ≠ node := fun v hv => hne v (h.mem_visited hv)
  have hlookup : (s.enter node).indices.lookup node = some s.index := lookup_assign_self ..
  have hvisited : ∀ v, (s.enter node).indices.lookup v ≠ none ↔
      v = node ∨ s.indices.lookup v ≠ none := by
    intro v
    by_cases hv : v = node
    · simp [hv, hlookup]
    · simp [hv, lookup_enter hv]
  refine ⟨?_, fun v hv => ?_, hlookup, nofun, [], s.index, rfl, lookup_assign_self .., le_rfl,
    ⟨nofun, .inl le_rfl⟩, nofun⟩
  · exact {
      onStack := fun v => by simp [TarjanState.enter, h.onStack v]
      visited := fun v => by
        rw [hvisited v, h.visited v, ← or_assoc]
        exact or_congr_left mem_cons.symm
      unclosed := fun v hv hclosed => by
        rcases mem_cons.1 hv with rfl | hv
        · exact (h.visited v).2 (.inr hclosed) hnew
        · exact h.unclosed v hv hclosed
      known := fun v hv => ((hvisited v).1 hv).elim (fun heq => heq ▸ hnode) (h.known v)
      below := fun v hv => by
        rcases (hvisited v).1 hv with rfl | hold
        · exact num_enter_self.trans_lt (Nat.lt_succ_self _)
        · exact (num_enter (hne v hold)).trans_lt ((h.below v hold).trans (Nat.lt_succ_self _))
      ordered := by
        refine pairwise_cons.2 ⟨fun w hw => ?_, h.ordered.imp_of_mem fun hv hw hlt => ?_⟩
        · obtain ⟨x, hx, -, hreach⟩ := h.back w hw
          rw [num_enter_self, num_enter (hstack w hw)]
          exact ⟨h.below w (h.mem_visited hw), hreach.trans (hgray x hx)⟩
        · rwa [num_enter (hstack _ hv), num_enter (hstack _ hw)]
      entered := fun v hv => (mem_cons.1 hv).elim (fun heq => heq ▸ .head _)
        fun hv => .tail _ (h.entered v hv)
      scanned := fun v hv hblack w hw => by
        rcases (hvisited v).1 hv with rfl | hold
        · exact absurd (.head _) hblack
        · exact (hvisited w).2 (.inr (h.scanned v hold (fun hv => hblack (.tail _ hv)) w hw))
      back := fun v hv => by
        rcases mem_cons.1 hv with rfl | hold
        · exact ⟨v, .head _, le_rfl, .refl⟩
        · obtain ⟨x, hx, hle, hreach⟩ := h.back v hold
          refine ⟨x, .tail _ hx, ?_, hreach⟩
          rwa [num_enter (hstack x (h.entered x hx)), num_enter (hstack v hold)]
      condensed := h.condensed }
  · exact ⟨lookup_enter (hne v hv), lookup_assign_ne _ _ (hne v hv)⟩

section

variable (h : Scanning adj nodes gray s node seen s')
include h

theorem Scanning.mem_below (hw : w ∈ s'.stack) (hlt : s'.num w < s.index) : w ∈ s.stack := by
  obtain ⟨above, low, hstack, -⟩ := h.low
  have hself := num_of_lookup h.index
  have hordered := h.searching.ordered
  rw [hstack] at hw hordered
  obtain ⟨-, -, habove⟩ := pairwise_append.1 hordered
  rcases mem_append.1 hw with hw | hw
  · have hgt := (habove w hw node (.head _)).1
    omega
  · refine (mem_cons.1 hw).resolve_left fun heq => ?_
    rw [heq] at hlt
    omega

/-- The step every neighbour takes: a state with more above, and a lower lowlink. -/
theorem Scanning.lowered (h₀ : Searching adj nodes gray s) {above : List String} {m : Nat}
    (hnew : s.indices.lookup node = none) (hsearch : Searching adj nodes (node :: gray) t)
    (hkept : s'.Kept t) (hstack : t.stack = above ++ s'.stack) (hedge : w ∈ adj node)
    (hw : t.indices.lookup w ≠ none) (hlow : w ∈ s.stack → m ≤ s.num w)
    (hlowest : Lowest adj s' w (· ∈ above) m) :
    Scanning adj nodes gray s node (seen ++ [w]) (t.lower node m) := by
  obtain ⟨above₀, low, hstack₀, hlookup, hle, hlowest₀, hseen⟩ := h.low
  have hvisited : s'.indices.lookup node ≠ none := by
    rw [h.index]
    exact nofun
  have hnum : ∀ v ∈ s.stack, s'.num v = s.num v := fun v hv => h.kept.num (h₀.mem_visited hv)
  refine ⟨hsearch.lower node m, fun v hv => ?_, (hkept node hvisited).1.trans h.index, ?_,
    above ++ above₀, min low m, ?_, ?_, (min_le_left ..).trans hle, ⟨?_, ?_⟩, ?_⟩
  · have hne : v ≠ node := fun heq => hv (heq ▸ hnew)
    have hold := h.kept v hv
    have hmore := hkept v (h.kept.visited hv)
    exact ⟨hmore.1.trans hold.1, (lookup_assign_ne _ _ hne).trans (hmore.2.trans hold.2)⟩
  · intro v hv
    rcases mem_append.1 hv with hv | hv
    · exact hkept.visited (h.found v hv)
    · exact mem_singleton.1 hv ▸ hw
  · exact hstack.trans (by rw [hstack₀, append_assoc])
  · refine (lookup_assign_self ..).trans ?_
    rw [(hkept node hvisited).2, hlookup, Option.getD_some]
  · intro v hv u hu hstack
    rcases mem_append.1 hv with hv | hv
    · have hbound := hlowest.bound v hv u hu (by rw [hstack₀]; simp [hstack])
      rw [hnum u hstack] at hbound
      exact (min_le_right ..).trans hbound
    · exact (min_le_left ..).trans (hlowest₀.bound v hv u hu hstack)
  · by_cases hmin : low ≤ m
    · rw [min_eq_left hmin]
      exact hlowest₀.attained
    rw [min_eq_right (le_of_not_ge hmin)]
    rcases hlowest.attained with hhigh | ⟨x, hx, hxm, hreach⟩
    · have hself := h.searching.below node hvisited
      rw [num_of_lookup h.index] at hself
      omega
    · have hbelow := h.mem_below hx (by omega)
      exact .inr ⟨x, hbelow, (hnum x hbelow).symm.trans hxm, .head hedge hreach⟩
  · intro v hv hstack
    rcases mem_append.1 hv with hv | hv
    · exact (min_le_left ..).trans (hseen v hv hstack)
    · obtain rfl := mem_singleton.1 hv
      exact (min_le_right ..).trans (hlow hstack)

theorem Scanning.visit
    (h₀ : Searching adj nodes gray s) (hnew : s.indices.lookup node = none) (hedge : w ∈ adj node)
    {connect : TarjanState → String → TarjanState}
    (hchild : s'.indices.lookup w = none → Visited adj nodes (node :: gray) s' w (connect s' w)) :
    Scanning adj nodes gray s node (seen ++ [w]) (visitNeighbor connect node s' w) := by
  unfold visitNeighbor
  cases hw : s'.indices.lookup w with
  | none =>
    have hvisit := hchild hw
    obtain ⟨above, low, hstack, hlookup, hlowest⟩ := hvisit.low
    dsimp only
    rw [hlookup, Option.getD_some]
    refine h.lowered h₀ hnew hvisit.searching hvisit.kept hstack hedge hvisit.found ?_ hlowest
    intro hold
    exact absurd hw (h.kept.visited (h₀.mem_visited hold))
  | some n =>
    have hvisited : s'.indices.lookup w ≠ none := by
      rw [hw]
      exact nofun
    have hnum := num_of_lookup hw
    dsimp only
    split
    · next hon =>
      have hstack := (h.searching.onStack w).1 hon
      refine h.lowered h₀ hnew h.searching (fun _ _ => ⟨rfl, rfl⟩) (nil_append _).symm hedge
        hvisited ?_ ⟨nofun, .inr ⟨w, hstack, hnum, .refl⟩⟩
      intro hold
      exact (hnum.symm.trans (h.kept.num (h₀.mem_visited hold))).le
    · next hoff =>
      obtain ⟨above, low, hstack, hlookup, hle, hlowest, hseen⟩ := h.low
      refine { h with found := ?_, low := ⟨above, low, hstack, hlookup, hle, hlowest, ?_⟩ }
      · intro v hv
        rcases mem_append.1 hv with hv | hv
        · exact h.found v hv
        · exact mem_singleton.1 hv ▸ hvisited
      · intro v hv hold
        rcases mem_append.1 hv with hv | hv
        · exact hseen v hv hold
        obtain rfl := mem_singleton.1 hv
        refine absurd ((h.searching.onStack v).2 ?_) hoff
        rw [hstack]
        simp [hold]

end

theorem popComponent_append {above rest : List String} (h : node ∉ above) :
    popComponent node (above ++ node :: rest) = (above ++ [node], rest) := by
  induction above with
  | nil => simp [popComponent]
  | cons v above ih =>
    have hne : v ≠ node := fun heq => h (heq ▸ .head _)
    simp [popComponent, hne, ih fun hmem => h (.tail _ hmem)]

theorem Searching.nodup (h : Searching adj nodes gray s) : s.stack.Nodup := by
  refine h.ordered.imp fun {v w} hlt => ?_
  rintro rfl
  exact lt_irrefl _ hlt.1

theorem Scanning.close (h : Scanning adj nodes gray s node (adj node) s')
    (h₀ : Searching adj nodes gray s) : Visited adj nodes gray s node (s'.close node) := by
  obtain ⟨above, low, hstack, hlookup, hle, hlowest, hseen⟩ := h.low
  have hsplit : s'.stack = (above ++ [node]) ++ s.stack := by
    rw [hstack, append_assoc, singleton_append]
  have hself := num_of_lookup h.index
  have hnum : ∀ v ∈ s.stack, s'.num v = s.num v := fun v hv => h.kept.num (h₀.mem_visited hv)
  have hnodup := h.searching.nodup
  rw [hsplit] at hnodup
  obtain ⟨hpopped, -, hapart⟩ := nodup_append'.1 hnodup
  have hdown : ∀ v ∈ s.stack, s'.num v < s.index := by
    intro v hv
    rw [hnum v hv]
    exact h₀.below v (h₀.mem_visited hv)
  have hgray : ∀ v ∈ above ++ [node], v ∉ gray := fun v hv hx => hapart hv (h₀.entered v hx)
  have hup : ∀ v ∈ above ++ [node], s.index ≤ s'.num v := by
    intro v hv
    rcases mem_append.1 hv with hv | hv
    · have hordered := h.searching.ordered
      rw [hstack] at hordered
      have hlt := ((pairwise_append.1 hordered).2.2 v hv node (.head _)).1
      omega
    · rw [mem_singleton.1 hv, hself]
  have hscanned : ∀ v, s'.indices.lookup v ≠ none → v ∉ gray →
      ∀ w ∈ adj v, s'.indices.lookup w ≠ none := by
    intro v hv hblack w hw
    by_cases heq : v = node
    · exact h.found w (heq ▸ hw)
    · exact h.searching.scanned v hv (fun hx => (mem_cons.1 hx).elim heq hblack) w hw
  have hbound : ∀ v ∈ above ++ [node], ∀ w ∈ adj v, w ∈ s.stack → low ≤ s.num w := by
    intro v hv w hw hold
    rcases mem_append.1 hv with hv | hv
    · exact hlowest.bound v hv w hw hold
    · exact hseen w (mem_singleton.1 hv ▸ hw) hold
  have hfound : s'.indices.lookup node ≠ none := by
    rw [h.index]
    exact nofun
  unfold TarjanState.close
  rw [hlookup, h.index]
  split
  · next hroot =>
    obtain rfl := Option.some.inj hroot
    have hpop : popComponent node s'.stack = (above ++ [node], s.stack) := by
      rw [hstack]
      exact popComponent_append fun hmem => (nodup_append'.1 hpopped).2.2 hmem (.head _)
    -- through `node` each of the popped nodes leads to each
    have hto : ∀ v ∈ above ++ [node], Leads adj v node := by
      intro v hv
      obtain ⟨x, hx, -, hreach⟩ := h.searching.back v (hsplit ▸ mem_append_left _ hv)
      rcases mem_cons.1 hx with rfl | hx
      · exact hreach
      have hold := h₀.entered x hx
      have hlt := hdown x hold
      exact hreach.trans (h.searching.reaches (hsplit ▸ mem_append_right _ hold)
        (hsplit ▸ by simp) (by omega))
    have hfrom : ∀ v ∈ above ++ [node], Leads adj node v := by
      intro v hv
      exact h.searching.reaches (hsplit ▸ by simp) (hsplit ▸ mem_append_left _ hv)
        (hself.trans_le (hup v hv))
    refine ⟨?_, h.kept, hfound, [], s.index, ?_, hlookup, nofun, .inl le_rfl⟩
    · exact {
        onStack := fun v => by
          simp only [hpop, mem_filter, decide_eq_true_eq, h.searching.onStack v]
          rw [hsplit, mem_append]
          exact ⟨fun hv => hv.1.resolve_left hv.2, fun hv => ⟨.inr hv, fun hp => hapart hp hv⟩⟩
        visited := fun v => by
          simp only [hpop, mem_flatten_snoc, h.searching.visited v]
          rw [hsplit, mem_append]
          tauto
        unclosed := fun v hv hclosed => by
          simp only [hpop, mem_flatten_snoc] at hv hclosed
          rcases hclosed with hclosed | hp
          · exact h.searching.unclosed v (hsplit ▸ mem_append_right _ hv) hclosed
          · exact hapart hp hv
        known := h.searching.known
        below := h.searching.below
        ordered := by
          have hordered := h.searching.ordered
          rw [hsplit] at hordered
          simp only [hpop]
          exact (pairwise_append.1 hordered).2.1
        entered := by
          simp only [hpop]
          exact h₀.entered
        scanned := hscanned
        back := fun v hv => by
          simp only [hpop] at hv
          obtain ⟨x, hx, hle, hreach⟩ := h₀.back v hv
          refine ⟨x, hx, ?_, hreach⟩
          exact (hnum x (h₀.entered x hx)).trans_le (hle.trans (hnum v hv).ge)
        condensed := by
          simp only [hpop]
          refine h.searching.condensed.snoc (by simp) hpopped (fun v hv => ?_) (fun v hv w hw => ?_)
            fun v hv w hw => ?_
          · exact h.searching.unclosed v (hsplit ▸ mem_append_left _ hv)
          · exact (hto v hv).trans (hfrom w hw)
          have hvisited := hscanned v (h.searching.mem_visited
            (hsplit ▸ mem_append_left _ hv)) (hgray v hv) w hw
          rcases (h.searching.visited w).1 hvisited with hin | hin
          · rw [hsplit] at hin
            refine .inr ((mem_append.1 hin).resolve_right fun hold => ?_)
            have hlow := hbound v hv w hw hold
            have hlt := h₀.below w (h₀.mem_visited hold)
            omega
          · exact .inl hin }
    · simp only [hpop, nil_append]
  · next hlower =>
    have hlt : low < s.index := lt_of_le_of_ne hle fun heq => hlower (heq ▸ rfl)
    refine ⟨{ h.searching with entered := ?_, scanned := hscanned, back := ?_ }, h.kept, hfound,
      above ++ [node], low, hsplit, hlookup, hbound, hlowest.attained⟩
    · exact fun v hv => h.searching.entered v (.tail _ hv)
    intro v hv
    obtain ⟨x, hx, hxv, hreach⟩ := h.searching.back v hv
    rcases mem_cons.1 hx with rfl | hx
    · obtain ⟨w, hw, rfl, hlead⟩ := hlowest.attained.resolve_left (Nat.not_le.2 hlt)
      obtain ⟨y, hy, hyw, hend⟩ := h₀.back w hw
      refine ⟨y, hy, ?_, hreach.trans (hlead.trans hend)⟩
      rw [hnum y (h₀.entered y hy)]
      omega
    · exact ⟨x, hx, hxv, hreach⟩

theorem Kept.trans (h : s.Kept s') (h' : s'.Kept t) : s.Kept t := fun v hv =>
  ⟨(h' v (h.visited hv)).1.trans (h v hv).1, (h' v (h.visited hv)).2.trans (h v hv).2⟩

/-- A visit with depth enough for the nodes that were not visited. -/
theorem strongConnect_visited (hadj : ∀ v, ∀ w ∈ adj v, w ∈ nodes) {depth : Nat}
    (hs : Searching adj nodes gray s) (hnode : node ∈ nodes) (hnew : s.indices.lookup node = none)
    (hgray : ∀ x ∈ gray, Leads adj x node)
    (hdepth : ∃ l : List String, l.length ≤ depth ∧
      ∀ v ∈ nodes, s.indices.lookup v = none → v ∈ l) :
    Visited adj nodes gray s node (strongConnect adj depth s node) := by
  induction depth generalizing gray s node with
  | zero =>
    obtain ⟨l, hl, hall⟩ := hdepth
    rw [eq_nil_of_length_eq_zero (Nat.le_zero.1 hl)] at hall
    exact nomatch hall node hnode hnew
  | succ depth ih =>
    have hscans : ∀ rest seen t, seen ++ rest = adj node →
        Scanning adj nodes gray s node seen t → Scanning adj nodes gray s node (adj node)
          (rest.foldl (visitNeighbor (strongConnect adj depth) node) t) := by
      intro rest
      induction rest with
      | nil =>
        intro seen t heq hscan
        rw [append_nil] at heq
        exact heq ▸ hscan
      | cons w rest ihrest =>
        intro seen t heq hscan
        have hedge : w ∈ adj node := heq ▸ by simp
        refine ihrest (seen ++ [w]) _ (by rw [append_assoc]; exact heq)
          (hscan.visit hs hnew hedge fun hwnew =>
            ih hscan.searching (hadj node w hedge) hwnew ?_ ?_)
        · intro x hx
          rcases mem_cons.1 hx with rfl | hx
          · exact .single hedge
          · exact (hgray x hx).tail hedge
        · obtain ⟨l, hl, hall⟩ := hdepth
          refine ⟨l.erase node, ?_, fun v hv hvnew => ?_⟩
          · rw [length_erase_of_mem (hall node hnode hnew)]
            omega
          · have hold : s.indices.lookup v = none := by
              by_contra hvisited
              exact hscan.kept.visited hvisited hvnew
            refine (mem_erase_of_ne ?_).2 (hall v hv hold)
            rintro rfl
            exact nomatch hscan.index.symm.trans hvnew
    exact (hscans _ [] _ rfl (hs.enter hnode hnew hgray)).close hs

theorem searching_initial : Searching adj nodes [] initial where
  onStack _ := Iff.rfl
  visited v := by simp [initial]
  unclosed v hv := nomatch hv
  known v hv := absurd rfl hv
  below v hv := absurd rfl hv
  ordered := .nil
  entered v hv := nomatch hv
  scanned v hv := absurd rfl hv
  back v hv := nomatch hv
  condensed := .nil

def search (adj : String → List String) (depth : Nat) (state : TarjanState) (node : String) :
    TarjanState :=
  if (state.indices.lookup node).isSome then state else strongConnect adj depth state node

theorem search_visited (hadj : ∀ v, ∀ w ∈ adj v, w ∈ nodes) (rest : List String)
    (hrest : ∀ v ∈ rest, v ∈ nodes) (hs : Searching adj nodes [] s) :
    Searching adj nodes [] (rest.foldl (search adj nodes.length) s) ∧
    s.Kept (rest.foldl (search adj nodes.length) s) ∧
    ∀ v ∈ rest, (rest.foldl (search adj nodes.length) s).indices.lookup v ≠ none := by
  induction rest generalizing s with
  | nil => exact ⟨hs, fun _ _ => ⟨rfl, rfl⟩, nofun⟩
  | cons node rest ih =>
    have hstep : Searching adj nodes [] (search adj nodes.length s node) ∧
        s.Kept (search adj nodes.length s node) ∧
        (search adj nodes.length s node).indices.lookup node ≠ none := by
      unfold search
      split
      · next hvisited => exact ⟨hs, fun _ _ => ⟨rfl, rfl⟩, Option.isSome_iff_ne_none.1 hvisited⟩
      next hnew =>
      have hvisit := strongConnect_visited hadj hs (hrest node (.head _))
        (Option.not_isSome_iff_eq_none.1 hnew) nofun ⟨nodes, le_rfl, fun v hv _ => hv⟩
      exact ⟨hvisit.searching, hvisit.kept, hvisit.found⟩
    obtain ⟨hall, hkept, hfound⟩ := ih (fun v hv => hrest v (.tail _ hv)) hstep.1
    refine ⟨hall, hstep.2.1.trans hkept, fun v hv => ?_⟩
    rcases mem_cons.1 hv with rfl | hv
    · exact hkept.visited hstep.2.2
    · exact hfound v hv

end TarjanState

/-- The graph the edges describe: an edge with an empty end is not read. -/
def Joined (edges : List CycleEdge) (v w : String) : Prop := v ≠ "" ∧ w ≠ "" ∧ ⟨v, w⟩ ∈ edges

/-- Components are classes of mutual reachability, disjoint, and those with a cycle told apart. -/
structure ExactComponents (edges : List CycleEdge) (result : TarjanResult) : Prop where
  nodup : result.components.flatten.Nodup
  nodes : ∀ v, v ∈ result.components.flatten ↔ ∃ w, Joined edges v w ∨ Joined edges w v
  classes : ∀ c ∈ result.components, c ≠ [] ∧ ∀ v ∈ c, ∀ w, w ∈ c ↔ Mutual (Joined edges) v w
  cyclic : ∀ c ∈ result.components, ∀ v ∈ c,
    isCyclicComponent c result.selfLoop = true ↔ TransGen (Joined edges) v v

theorem mem_adjacency {edges : List CycleEdge} {v w : String} :
    w ∈ adjacency (edges.filter fun edge => edge.from ≠ "" ∧ edge.to ≠ "") v ↔
      Joined edges v w := by
  simp only [adjacency, mem_map, mem_filter, decide_eq_true_eq, Joined]
  constructor
  · rintro ⟨edge, ⟨⟨hmem, hfrom, hto⟩, rfl⟩, rfl⟩
    exact ⟨hfrom, hto, hmem⟩
  · rintro ⟨hfrom, hto, hmem⟩
    exact ⟨_, ⟨⟨hmem, hfrom, hto⟩, rfl⟩, rfl⟩

theorem stronglyConnectedComponents_condensed (edges : List CycleEdge) :
    Condensed (Joined edges) (stronglyConnectedComponents edges).components ∧
      ∀ v, v ∈ (stronglyConnectedComponents edges).components.flatten ↔
        ∃ w, Joined edges v w ∨ Joined edges w v := by
  unfold stronglyConnectedComponents
  set readable := edges.filter fun edge => edge.from ≠ "" ∧ edge.to ≠ "" with hreadable
  set nodes := distinct (readable.flatMap fun edge => [edge.from, edge.to]) with hnodes
  have hedge : (fun v w => w ∈ adjacency readable v) = Joined edges := by
    funext v w
    exact propext mem_adjacency
  have hnode : ∀ v, v ∈ nodes ↔ ∃ w, Joined edges v w ∨ Joined edges w v := by
    intro v
    simp only [hnodes, hreadable, mem_distinct, mem_flatMap, mem_filter, mem_pair,
      decide_eq_true_eq]
    constructor
    · rintro ⟨edge, ⟨hmem, hfrom, hto⟩, rfl | rfl⟩
      · exact ⟨edge.to, .inl ⟨hfrom, hto, hmem⟩⟩
      · exact ⟨edge.from, .inr ⟨hfrom, hto, hmem⟩⟩
    · rintro ⟨w, ⟨hfrom, hto, hmem⟩ | ⟨hfrom, hto, hmem⟩⟩
      · exact ⟨_, ⟨hmem, hfrom, hto⟩, .inl rfl⟩
      · exact ⟨_, ⟨hmem, hfrom, hto⟩, .inr rfl⟩
  have hadj : ∀ v, ∀ w ∈ adjacency readable v, w ∈ nodes := fun v w hw =>
    (hnode w).2 ⟨v, .inr (mem_adjacency.1 hw)⟩
  obtain ⟨hsearch, -, hvisited⟩ := TarjanState.search_visited hadj nodes (fun _ => id)
    TarjanState.searching_initial
  have hempty : ∀ v, v ∉ _ := fun v hv =>
    not_mem_nil (hsearch.back v hv).choose_spec.1
  refine ⟨hedge ▸ hsearch.condensed, fun v => ?_⟩
  rw [← hnode v]
  refine ⟨fun hv => hsearch.known v ((hsearch.visited v).2 (.inr hv)), fun hv => ?_⟩
  exact ((hsearch.visited v).1 (hvisited v hv)).resolve_left (hempty v)

theorem mem_selfLoop {edges : List CycleEdge} {v : String} :
    v ∈ (stronglyConnectedComponents edges).selfLoop ↔ Joined edges v v := by
  simp only [stronglyConnectedComponents, mem_distinct, mem_map, mem_filter,
    decide_eq_true_eq, Joined]
  constructor
  · rintro ⟨⟨a, b⟩, ⟨⟨hmem, hfrom, hto⟩, hsame⟩, hv⟩
    obtain rfl : a = b := hsame
    obtain rfl : a = v := hv
    exact ⟨hfrom, hto, hmem⟩
  · rintro ⟨hfrom, hto, hmem⟩
    exact ⟨_, ⟨⟨hmem, hfrom, hto⟩, rfl⟩, rfl⟩

theorem isCyclicComponent_iff {c selfLoop : List String} {v : String} (hnodup : c.Nodup)
    (hv : v ∈ c) : isCyclicComponent c selfLoop = true ↔ (∃ w ∈ c, w ≠ v) ∨ v ∈ selfLoop := by
  match c with
  | [only] =>
    obtain rfl := mem_singleton.1 hv
    simp [isCyclicComponent]
  | a :: b :: rest =>
    have hab : a ≠ b := fun heq => (nodup_cons.1 hnodup).1 (heq ▸ .head _)
    refine iff_of_true rfl (.inl ?_)
    by_cases ha : a = v
    · exact ⟨b, .tail _ (.head _), fun hb => hab (ha.trans hb.symm)⟩
    · exact ⟨a, .head _, ha⟩

theorem stronglyConnectedComponents_exact (edges : List CycleEdge) :
    ExactComponents edges (stronglyConnectedComponents edges) := by
  obtain ⟨hcondensed, hnodes⟩ := stronglyConnectedComponents_condensed edges
  refine ⟨hcondensed.nodup, hnodes, fun c hc => ⟨hcondensed.ne_nil hc, fun v hv w =>
    hcondensed.class hc hv⟩, fun c hc v hv => ?_⟩
  rw [transGen_self_iff fun w => hcondensed.class hc hv, ← mem_selfLoop]
  exact isCyclicComponent_iff ((nodup_flatten.1 hcondensed.nodup).1 c hc) hv

section Order
variable {edges edges' : List CycleEdge}

theorem joined_reordered (h : ∀ edge, edge ∈ edges' ↔ edge ∈ edges) :
    Joined edges' = Joined edges := by
  funext v w
  simp only [Joined, h]

theorem stronglyConnectedComponents_reordered (h : ∀ edge, edge ∈ edges' ↔ edge ∈ edges)
    {c : List String} (hc : c ∈ (stronglyConnectedComponents edges').components) :
    ∃ c' ∈ (stronglyConnectedComponents edges).components, c.Perm c' ∧
      isCyclicComponent c' (stronglyConnectedComponents edges).selfLoop =
        isCyclicComponent c (stronglyConnectedComponents edges').selfLoop := by
  obtain ⟨hcondensed, hnodes⟩ := stronglyConnectedComponents_condensed edges
  obtain ⟨hcondensed', hnodes'⟩ := stronglyConnectedComponents_condensed edges'
  rw [joined_reordered h] at hcondensed' hnodes'
  obtain ⟨c', hc', hperm⟩ := hcondensed'.unique hcondensed
    (fun v hv => (hnodes v).2 ((hnodes' v).1 hv)) hc
  obtain ⟨v, hv⟩ := exists_mem_of_ne_nil c (hcondensed'.ne_nil hc)
  refine ⟨c', hc', hperm, Bool.eq_iff_iff.2 ?_⟩
  rw [(stronglyConnectedComponents_exact edges).cyclic c' hc' v (hperm.mem_iff.1 hv),
    (stronglyConnectedComponents_exact edges').cyclic c hc v hv, joined_reordered h]

theorem uncontainedCycles_reordered {nodes nodes' : List CompiledNode}
    {bound bound' : List CompiledEdge} {groups : List CompiledLoopGroup}
    (hnodes : ∀ id, id ∈ nodes'.map (·.id) ↔ id ∈ nodes.map (·.id))
    (hbound : ∀ edge, edge ∈ bound' ↔ edge ∈ bound) {l : List String}
    (hl : l ∈ uncontainedCycles nodes' bound' groups) :
    l ∈ uncontainedCycles nodes bound groups := by
  have hmembers : readableMembers nodes' = readableMembers nodes := by
    funext group
    simp only [readableMembers, hnodes]
  have hcycle : ∀ (p : CompiledEdge → Bool) (f : CompiledEdge → CycleEdge) edge,
      edge ∈ (bound'.filter p).map f ↔ edge ∈ (bound.filter p).map f := by
    intro p f edge
    simp only [mem_map, mem_filter, hbound]
  simp only [uncontainedCycles, hnodes, hmembers, mem_insertionSort] at hl ⊢
  obtain ⟨c, hc, rfl⟩ := mem_map.1 hl
  obtain ⟨hc, hkeep⟩ := mem_filter.1 hc
  obtain ⟨hcyclic, hloose⟩ := of_decide_eq_true hkeep
  obtain ⟨c', hc', hperm, hsame⟩ := stronglyConnectedComponents_reordered (hcycle _ _) hc
  refine mem_map.2 ⟨c', mem_filter.2 ⟨hc', decide_eq_true ⟨hsame.trans hcyclic, ?_⟩⟩,
    (sortText_eq_of_perm hperm).symm⟩
  rwa [hperm.any_eq] at hloose

end Order

/-- Components are exact, and no order of nodes and edges changes them or the cycles reported. -/
theorem cycleDetection_exact :
    (∀ edges, ExactComponents edges (stronglyConnectedComponents edges)) ∧
    (∀ edges edges' : List CycleEdge, (∀ edge, edge ∈ edges' ↔ edge ∈ edges) →
      ∀ c ∈ (stronglyConnectedComponents edges').components,
        ∃ c' ∈ (stronglyConnectedComponents edges).components, c.Perm c') ∧
    ∀ (nodes nodes' : List CompiledNode) (edges edges' : List CompiledEdge)
      (groups : List CompiledLoopGroup), (∀ id, id ∈ nodes'.map (·.id) ↔ id ∈ nodes.map (·.id)) →
      (∀ edge, edge ∈ edges' ↔ edge ∈ edges) →
      ∀ l ∈ uncontainedCycles nodes' edges' groups, l ∈ uncontainedCycles nodes edges groups := by
  refine ⟨stronglyConnectedComponents_exact, fun edges edges' h c hc => ?_, ?_⟩
  · obtain ⟨c', hc', hperm, -⟩ := stronglyConnectedComponents_reordered h hc
    exact ⟨c', hc', hperm⟩
  · exact fun nodes nodes' edges edges' groups hnodes hedges l hl =>
      uncontainedCycles_reordered hnodes hedges hl

end Rolebox.Graph
