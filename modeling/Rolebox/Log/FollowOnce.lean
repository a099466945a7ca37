import Mathlib.Algebra.Order.Ring.Unbundled.Rat
import Rolebox.General.Keyed
import Rolebox.Log.Follower

/-! What a follower delivers: lines at most once, in time order, and in time. -/

namespace Rolebox.Log
open General List Function
variable {Record : Type*} {parse : LineReader Record} {time : Record → Rat} {collation : Collation}
  {query : FollowQuery}

section Cursor
variable {content bytes : List UInt8} {base offset offset' : Nat} {seen lines : List (List UInt8)}

def CursorAt (content : List UInt8) (base : Nat) (seen : List (List UInt8)) (offset : Nat) : Prop :=
  ∃ rest, content.drop base = joined 10 seen ++ rest ∧
    offset = base + (joined 10 seen).length ∧ base ≤ content.length

section

variable (h : CursorAt content base seen offset)
include h

theorem CursorAt.append : CursorAt (content ++ bytes) base seen offset := by
  obtain ⟨rest, hrest, hoffset, hle⟩ := h
  refine ⟨rest ++ bytes, ?_, hoffset, ?_⟩
  · rw [drop_append_of_le_length hle, hrest, append_assoc]
  · rw [length_append]
    omega

theorem CursorAt.le : offset ≤ content.length := by
  obtain ⟨rest, hrest, rfl, hle⟩ := h
  have hlength := congrArg length hrest
  rw [length_drop, length_append] at hlength
  omega

theorem CursorAt.read (hread : readNewLines content offset false = some (lines, offset')) :
    CursorAt content base (seen ++ lines) offset' ∧ (∀ l ∈ lines, (10 : UInt8) ∉ l) ∧
      ∃ tail, content.drop base = joined 10 (seen ++ lines) ++ tail ∧ (10 : UInt8) ∉ tail := by
  obtain ⟨rest, hrest, rfl, hle⟩ := h
  have hdrop : content.drop (base + (joined 10 seen).length) = rest := by
    rw [← drop_drop, hrest, drop_left]
  obtain ⟨ls, tail, hls, htail, hsplit⟩ := exists_joined (10 : UInt8) rest
  simp only [readNewLines, Bool.false_eq_true, if_false, hdrop, hsplit, readLines_joined hls htail,
    Option.some.injEq, Prod.mk.injEq] at hread
  obtain ⟨rfl, rfl⟩ := hread
  have htext : content.drop base = joined 10 (seen ++ ls) ++ tail := by
    rw [hrest, hsplit, joined_append, append_assoc]
  refine ⟨⟨tail, htext, ?_, hle⟩, hls, tail, htext, htail⟩
  rw [joined_append, length_append, Nat.add_assoc]

end

end Cursor

section Ledger
variable {state : List (Nat × Nat)} {identity offset bound : Nat}

theorem length_le_of_keys (hkeys : (state.map Prod.fst).Nodup)
    (hbound : ∀ entry ∈ state, entry.1 < bound) : state.length ≤ bound := by
  have hsub : (state.map Prod.fst).Subperm (range bound) :=
    subperm_of_subset hkeys fun key hkey => by
      obtain ⟨entry, hentry, rfl⟩ := mem_map.1 hkey
      exact mem_range.2 (hbound entry hentry)
  have hle := hsub.length_le
  rwa [length_map, length_range] at hle

def updated (state : List (Nat × Nat)) (identity offset : Nat) : List (Nat × Nat) :=
  state.filter (fun entry => entry.1 ≠ identity) ++ [(identity, offset)]

theorem updated_keys (hkeys : (state.map Prod.fst).Nodup) :
    ((updated state identity offset).map Prod.fst).Nodup := by
  unfold updated
  rw [map_append, nodup_append]
  refine ⟨hkeys.sublist (filter_sublist.map _), nodup_singleton _, fun a ha b hb hab => ?_⟩
  obtain ⟨entry, hentry, rfl⟩ := mem_map.1 ha
  have hne : entry.1 ≠ identity := of_decide_eq_true (mem_filter.1 hentry).2
  exact hne (hab.trans (mem_singleton.1 hb))

theorem updated_minted (hbound : ∀ entry ∈ state, entry.1 < bound) (hidentity : identity < bound) :
    ∀ entry ∈ updated state identity offset, entry.1 < bound := by
  intro entry hentry
  rcases mem_append.1 hentry with hold | hnew
  · exact hbound entry (mem_filter.1 hold).1
  · rw [mem_singleton.1 hnew]
    exact hidentity

theorem remember_eq (hkeys : (state.map Prod.fst).Nodup)
    (hbound : ∀ entry ∈ state, entry.1 < bound) (hidentity : identity < bound)
    (hcap : bound ≤ MAX_FOLLOW_IDENTITIES) :
    remember state identity offset = updated state identity offset := by
  have hle : (updated state identity offset).length ≤ bound :=
    length_le_of_keys (updated_keys hkeys) (updated_minted hbound hidentity)
  have hnone : (updated state identity offset).length - MAX_FOLLOW_IDENTITIES = 0 := by omega
  exact (congrArg (List.drop · (updated state identity offset)) hnone).trans drop_zero

theorem lookup_updated (j : Nat) :
    (updated state identity offset).lookup j =
      if j = identity then some offset else state.lookup j := by
  unfold updated
  rw [lookup_append]
  by_cases hj : j = identity
  · subst hj
    have hnone : (state.filter fun entry => entry.1 ≠ j).lookup j = none := by
      rw [General.lookup_eq_none_iff]
      intro hmem
      obtain ⟨entry, hentry, hsame⟩ := mem_map.1 hmem
      exact absurd hsame (of_decide_eq_true (mem_filter.1 hentry).2)
    rw [hnone, if_pos rfl, Option.none_or, List.lookup_cons_self]
  · rw [lookup_filter_other hj, if_neg hj, lookup_cons, beq_false_of_ne hj, lookup_nil,
      Option.or_none]

end Ledger

section Guard

structure Following (parse : LineReader Record) (time : Record → Rat) (s : FollowWorld Record) :
    Prop where
  named : ∀ entry ∈ s.disk.names, entry.2 < s.disk.nextInode
  minted : ∀ entry ∈ s.follower.state, entry.1 < s.disk.nextInode
  keys : (s.follower.state.map Prod.fst).Nodup
  cursor : ∀ i, CursorAt (s.disk.contents i) (s.follower.base i) (s.follower.seen i)
    ((s.follower.state.lookup i).getD 0)
  clean : ∀ i, ∀ l ∈ s.follower.seen i, (10 : UInt8) ∉ l
  only : ∀ d ∈ s.follower.delivered.flatten ++ s.follower.batch, ∃ line,
    (d.start, line) ∈ placed (s.follower.base d.inode) (s.follower.seen d.inode) ∧
      parse line = some d.record
  every : ∀ i start line record, (start, line) ∈ placed (s.follower.base i) (s.follower.seen i) →
    parse line = some record →
      ⟨i, start, record⟩ ∈ s.follower.delivered.flatten ++ s.follower.batch
  once : ((s.follower.delivered.flatten ++ s.follower.batch).map Delivery.line).Nodup
  ordered : ∀ batch ∈ s.follower.delivered,
    batch.Pairwise fun left right => time left.record ≤ time right.record
  opened : ∀ i sizeBytes paths, s.follower.phase = .reading i sizeBytes paths →
    i < s.disk.nextInode ∧ (s.follower.state.lookup i).getD 0 ≤ sizeBytes
  begun : s.follower.phase = .starting → ∀ i, s.follower.base i = 0
  unread : (s.follower.phase = .starting ∨ ∃ paths, s.follower.phase = .baselining paths) →
    ∀ i, s.follower.seen i = []
  idle : s.follower.phase = .sleeping → s.follower.batch = []

variable {s : FollowWorld Record} {f : Follower Record}

section

variable (hs : Following parse time s)
include hs

theorem Following.disk (disk : Disk) (hnamed : ∀ entry ∈ disk.names, entry.2 < disk.nextInode)
    (hnext : s.disk.nextInode ≤ disk.nextInode)
    (hcontents : ∀ i, ∃ bytes, disk.contents i = s.disk.contents i ++ bytes) :
    Following parse time { s with disk := disk } where
  named := hnamed
  minted entry hentry := Nat.lt_of_lt_of_le (hs.minted entry hentry) hnext
  keys := hs.keys
  cursor i := by
    obtain ⟨bytes, hbytes⟩ := hcontents i
    rw [hbytes]
    exact (hs.cursor i).append
  clean := hs.clean
  only := hs.only
  every := hs.every
  once := hs.once
  ordered := hs.ordered
  opened i sizeBytes paths hphase :=
    ⟨Nat.lt_of_lt_of_le (hs.opened i sizeBytes paths hphase).1 hnext,
      (hs.opened i sizeBytes paths hphase).2⟩
  begun := hs.begun
  unread := hs.unread
  idle := hs.idle

theorem Following.moved (hstate : f.state = s.follower.state)
    (hbase : f.base = s.follower.base) (hseen : f.seen = s.follower.seen)
    (hdelivered : f.delivered = s.follower.delivered) (hbatch : f.batch = s.follower.batch)
    (hopened : ∀ i sizeBytes paths, f.phase = .reading i sizeBytes paths →
      i < s.disk.nextInode ∧ (f.state.lookup i).getD 0 ≤ sizeBytes)
    (hbegun : f.phase = .starting → ∀ i, f.base i = 0)
    (hunread : (f.phase = .starting ∨ ∃ paths, f.phase = .baselining paths) → ∀ i, f.seen i = [])
    (hidle : f.phase = .sleeping → f.batch = []) :
    Following parse time { s with follower := f } where
  named := hs.named
  minted := by
    rw [hstate]
    exact hs.minted
  keys := by
    rw [hstate]
    exact hs.keys
  cursor i := by
    rw [hstate, hbase, hseen]
    exact hs.cursor i
  clean := by
    rw [hseen]
    exact hs.clean
  only := by
    rw [hdelivered, hbatch, hbase, hseen]
    exact hs.only
  every := by
    rw [hdelivered, hbatch, hbase, hseen]
    exact hs.every
  once := by
    rw [hdelivered, hbatch]
    exact hs.once
  ordered := by
    rw [hdelivered]
    exact hs.ordered
  opened := hopened
  begun := hbegun
  unread := hunread
  idle := hidle

omit hs in
theorem carriedOffset_eq {state : List (Nat × Nat)} {identity sizeBytes : Nat}
    (h : (state.lookup identity).getD 0 ≤ sizeBytes) :
    carriedOffset state identity sizeBytes = (state.lookup identity).getD 0 := by
  unfold carriedOffset
  cases hlookup : state.lookup identity with
  | none => rfl
  | some carried =>
    rw [hlookup] at h
    exact if_pos h

omit hs in
theorem mem_deliveries {inode offset : Nat} {lines : List (List UInt8)} {d : Delivery Record} :
    d ∈ Follower.deliveries parse inode offset lines ↔
      d.inode = inode ∧ ∃ line, (d.start, line) ∈ placed offset lines ∧
        parse line = some d.record := by
  unfold Follower.deliveries
  rw [mem_filterMap]
  constructor
  · rintro ⟨⟨start, line⟩, hline, hd⟩
    obtain ⟨record, hrecord, rfl⟩ := Option.map_eq_some_iff.1 hd
    exact ⟨rfl, line, hline, hrecord⟩
  · rintro ⟨rfl, line, hline, hrecord⟩
    exact ⟨(d.start, line), hline, by rw [hrecord]; rfl⟩

omit hs in
theorem deliveries_nodup (inode offset : Nat) (lines : List (List UInt8)) :
    ((Follower.deliveries parse inode offset lines).map Delivery.line).Nodup := by
  have hplaces : ((placed offset lines).map fun line => (inode, line.1)).Nodup := by
    have hpair : Function.Injective (Prod.mk inode : Nat → Nat × Nat) :=
      fun _ _ h => (Prod.mk.inj h).2
    have hpairs := (placed_nodup offset lines).map hpair
    rwa [map_map] at hpairs
  refine hplaces.sublist (map_filterMap_sublist fun line _ d hd => ?_)
  obtain ⟨record, -, rfl⟩ := Option.map_eq_some_iff.1 hd
  rfl

theorem Following.read {inode sizeBytes : Nat} {paths : List String} {fails : Bool}
    (hphase : s.follower.phase = .reading inode sizeBytes paths)
    (hcap : s.disk.nextInode ≤ MAX_FOLLOW_IDENTITIES) :
    Following parse time { s with
      follower := s.follower.read parse (s.disk.contents inode) inode sizeBytes paths fails } := by
  obtain ⟨hinode, hsize⟩ := hs.opened inode sizeBytes paths hphase
  have hremember : ∀ offset, remember s.follower.state inode offset =
      updated s.follower.state inode offset :=
    fun offset => remember_eq hs.keys hs.minted hinode hcap
  unfold Follower.read
  rw [carriedOffset_eq hsize]
  generalize hoffset : (s.follower.state.lookup inode).getD 0 = offset
  have hcursor := hs.cursor inode
  rw [hoffset] at hcursor
  dsimp only
  cases hread : readNewLines (s.disk.contents inode) offset fails with
  | none =>
    refine ⟨hs.named, ?_, ?_, fun i => ?_, hs.clean, hs.only, hs.every, hs.once, hs.ordered,
      nofun, nofun, nofun, nofun⟩
    · rw [hremember]
      exact updated_minted hs.minted hinode
    · rw [hremember]
      exact updated_keys hs.keys
    · dsimp only
      rw [hremember, lookup_updated]
      split
      · next heq =>
        rw [heq]
        exact hcursor
      · exact hs.cursor i
  | some found =>
    obtain ⟨lines, offset'⟩ := found
    have hworks : fails = false := by
      cases fails with
      | false => rfl
      | true => exact nomatch hread
    rw [hworks] at hread
    obtain ⟨hnew, hclean, -⟩ := hcursor.read hread
    have hplaces : placed (s.follower.base inode) (s.follower.seen inode ++ lines) =
        placed (s.follower.base inode) (s.follower.seen inode) ++ placed offset lines := by
      obtain ⟨-, -, hat, -⟩ := hcursor
      rw [placed_append 10, hat]
    refine ⟨hs.named, ?_, ?_, fun i => ?_, fun i l hl => ?_, fun d hd => ?_,
      fun i start line record hline hrecord => ?_, ?_, hs.ordered,
      nofun, nofun, fun h => ?_, nofun⟩
    · dsimp only
      rw [hremember]
      exact updated_minted hs.minted hinode
    · dsimp only
      rw [hremember]
      exact updated_keys hs.keys
    · dsimp only
      rw [hremember, lookup_updated, update_apply]
      split
      · next heq =>
        rw [heq]
        exact hnew
      · exact hs.cursor i
    · dsimp only at hl
      rw [update_apply] at hl
      split at hl
      · next heq =>
        rcases mem_append.1 hl with hold | hfresh
        · exact hs.clean inode l hold
        · exact hclean l hfresh
      · exact hs.clean i l hl
    · dsimp only at hd ⊢
      rw [← append_assoc] at hd
      rw [update_apply]
      rcases mem_append.1 hd with hold | hfresh
      · obtain ⟨line, hline, hrecord⟩ := hs.only d hold
        refine ⟨line, ?_, hrecord⟩
        split
        · next heq =>
          rw [heq] at hline ⊢
          rw [hplaces]
          exact mem_append_left _ hline
        · exact hline
      · obtain ⟨heq, line, hline, hrecord⟩ := mem_deliveries.1 hfresh
        refine ⟨line, ?_, hrecord⟩
        rw [if_pos heq, heq, hplaces]
        exact mem_append_right _ hline
    · dsimp only at hline ⊢
      rw [← append_assoc]
      rw [update_apply] at hline
      split at hline
      · next heq =>
        subst heq
        rw [hplaces] at hline
        rcases mem_append.1 hline with hold | hfresh
        · exact mem_append_left _ (hs.every i start line record hold hrecord)
        · exact mem_append_right _ (mem_deliveries.2 ⟨rfl, line, hfresh, hrecord⟩)
      · exact mem_append_left _ (hs.every i start line record hline hrecord)
    · dsimp only
      rw [← append_assoc, map_append, nodup_append]
      refine ⟨hs.once, deliveries_nodup _ _ _, fun a ha b hb hab => ?_⟩
      -- a new line starts behind the offset, and the lines delivered before end there
      obtain ⟨d, hd, rfl⟩ := mem_map.1 ha
      obtain ⟨d', hd', rfl⟩ := mem_map.1 hb
      obtain ⟨hinode', line', hline', -⟩ := mem_deliveries.1 hd'
      obtain ⟨line, hline, -⟩ := hs.only d hd
      obtain ⟨hsame, hstart⟩ := Prod.mk.inj hab
      rw [hsame, hinode'] at hline
      have hbefore := placed_lt 10 hline
      have hbehind := placed_le hline'
      obtain ⟨-, -, hat, -⟩ := hcursor
      omega
    · rcases h with hphase' | ⟨paths', hphase'⟩
      · exact nomatch hphase'
      · exact nomatch hphase'

theorem Following.deliver :
    Following parse time { s with follower := s.follower.deliver time } := by
  have hperm : ((s.follower.delivered ++
      [s.follower.batch.mergeSort fun left right => time left.record ≤ time right.record]).flatten ++
        []).Perm (s.follower.delivered.flatten ++ s.follower.batch) := by
    rw [append_nil, flatten_append, flatten_cons, flatten_nil, append_nil]
    exact (mergeSort_perm _ _).append_left _
  refine ⟨hs.named, hs.minted, hs.keys, hs.cursor, hs.clean,
    fun d hd => hs.only d (hperm.mem_iff.1 hd),
    fun i start line record hline hrecord =>
      hperm.mem_iff.2 (hs.every i start line record hline hrecord),
    (hperm.map Delivery.line).nodup_iff.2 hs.once, fun batch hbatch => ?_,
    nofun, nofun, fun h => ?_, fun _ => rfl⟩
  · rcases mem_append.1 hbatch with hold | hnew
    · exact hs.ordered batch hold
    rw [mem_singleton.1 hnew]
    have htrans : ∀ a b c : Delivery Record, decide (time a.record ≤ time b.record) = true →
        decide (time b.record ≤ time c.record) = true →
          decide (time a.record ≤ time c.record) = true := fun a b c hab hbc =>
      decide_eq_true (le_trans (of_decide_eq_true hab) (of_decide_eq_true hbc))
    have htotal : ∀ a b : Delivery Record, (decide (time a.record ≤ time b.record) ||
        decide (time b.record ≤ time a.record)) = true := fun a b => by
      rw [Bool.or_eq_true, decide_eq_true_iff, decide_eq_true_iff]
      exact le_total _ _
    exact (pairwise_mergeSort htrans htotal _).imp fun h => of_decide_eq_true h
  · rcases h with hphase | ⟨paths, hphase⟩
    · exact nomatch hphase
    · exact nomatch hphase

omit hs in
theorem inode?_named {path : String} {inode : Nat} {d : Disk}
    (hnamed : ∀ entry ∈ d.names, entry.2 < d.nextInode) (h : d.inode? path = some inode) :
    inode < d.nextInode := by
  obtain ⟨entry, hentry, rfl⟩ := Option.map_eq_some_iff.1 h
  exact hnamed entry (mem_of_find?_eq_some hentry)

theorem Following.nothing (hunread : ∀ i, s.follower.seen i = []) :
    s.follower.delivered.flatten ++ s.follower.batch = [] :=
  eq_nil_iff_forall_not_mem.2 fun d hd => by
    obtain ⟨line, hline, -⟩ := hs.only d hd
    rw [hunread d.inode] at hline
    exact nomatch hline

theorem Following.baseline {inode : Nat} {path : String} {paths : List String}
    (hphase : s.follower.phase = .baselining (path :: paths))
    (hinode : inode < s.disk.nextInode) (hcap : s.disk.nextInode ≤ MAX_FOLLOW_IDENTITIES) :
    Following parse time { s with
      follower := { s.follower with
        phase := .baselining paths
        state := remember s.follower.state inode (s.disk.contents inode).length
        base := update s.follower.base inode (s.disk.contents inode).length } } := by
  have hunread := hs.unread (.inr ⟨_, hphase⟩)
  have hnothing := hs.nothing hunread
  refine ⟨hs.named, ?_, ?_, fun i => ?_, hs.clean, fun d hd => ?_,
    fun i start line record hline _ => ?_, hs.once, hs.ordered, nofun,
    nofun, fun _ => hunread, nofun⟩
  · rw [remember_eq hs.keys hs.minted hinode hcap]
    exact updated_minted hs.minted hinode
  · rw [remember_eq hs.keys hs.minted hinode hcap]
    exact updated_keys hs.keys
  · dsimp only
    rw [remember_eq hs.keys hs.minted hinode hcap, lookup_updated, update_apply]
    split
    · next heq =>
      subst heq
      rw [hunread i, Option.getD_some]
      refine ⟨[], ?_, rfl, Nat.le_refl _⟩
      rw [drop_length]
      rfl
    · exact hs.cursor i
  · rw [hnothing] at hd
    exact nomatch hd
  · rw [hunread i] at hline
    exact nomatch hline

theorem Following.call (hcap : s.disk.nextInode ≤ MAX_FOLLOW_IDENTITIES) (fails : Bool) :
    Following parse time { s with
      follower := s.follower.call parse time collation query s.disk fails } := by
  have hbaselining : ∀ paths paths', s.follower.phase = .baselining paths →
      Following parse time { s with follower := { s.follower with phase := .baselining paths' } } :=
    fun paths paths' hphase => hs.moved rfl rfl rfl rfl rfl (nofun)
      (nofun) (fun _ => hs.unread (.inr ⟨paths, hphase⟩)) nofun
  have hwalking : ∀ paths, Following parse time
      { s with follower := { s.follower with phase := .walking paths } } :=
    fun paths => hs.moved rfl rfl rfl rfl rfl (nofun) (nofun)
      (by rintro (h | ⟨_, h⟩) <;> exact nomatch h) nofun
  unfold Follower.call
  cases hphase : s.follower.phase with
  | starting =>
    refine ⟨hs.named, nofun, nodup_nil, fun i => ?_, hs.clean, hs.only, hs.every,
      hs.once, hs.ordered, nofun, nofun,
      fun _ => hs.unread (.inl hphase), nofun⟩
    rw [hs.begun hphase i, hs.unread (.inl hphase) i]
    exact ⟨_, rfl, rfl, Nat.zero_le _⟩
  | baselining paths =>
    cases paths with
    | nil =>
      refine hs.moved rfl rfl rfl rfl rfl (nofun) (nofun)
        (by rintro (h | ⟨_, h⟩) <;> exact nomatch h) fun _ => ?_
      exact (append_eq_nil_iff.1 (hs.nothing (hs.unread (.inr ⟨[], hphase⟩)))).2
    | cons path paths =>
      dsimp only
      split
      · exact hbaselining _ paths hphase
      next inode hinode =>
      have hopen : s.disk.inode? path = some inode := by
        cases fails with
        | false => exact hinode
        | true => exact nomatch hinode
      exact hs.baseline hphase (inode?_named hs.named hopen) hcap
  | sleeping =>
    refine hs.moved rfl rfl rfl rfl (hs.idle hphase).symm (nofun)
      (nofun) (by rintro (h | ⟨_, h⟩) <;> exact nomatch h) nofun
  | listing =>
    exact hs.moved rfl rfl rfl rfl rfl (nofun) (nofun)
      (by rintro (h | ⟨_, h⟩) <;> exact nomatch h) nofun
  | walking paths =>
    cases paths with
    | nil =>
      dsimp only
      split
      · exact hs.deliver
      · exact hs.moved rfl rfl rfl rfl rfl (nofun) (nofun)
          (by rintro (h | ⟨_, h⟩) <;> exact nomatch h) nofun
    | cons path paths =>
      dsimp only
      split
      · exact hwalking paths
      next inode hinode =>
      have hopen : s.disk.inode? path = some inode := by
        cases fails with
        | false => exact hinode
        | true => exact nomatch hinode
      refine hs.moved rfl rfl rfl rfl rfl (fun i sizeBytes paths' h => ?_) (nofun)
        (by rintro (h | ⟨_, h⟩) <;> exact nomatch h) nofun
      obtain ⟨rfl, rfl, -⟩ := FollowPhase.reading.inj h
      exact ⟨inode?_named hs.named hopen, (hs.cursor inode).le⟩
  | reading inode sizeBytes paths => exact hs.read hphase hcap

end

variable {event : FollowEvent} {t : FollowWorld Record}

theorem disk_step (hnamed : ∀ entry ∈ s.disk.names, entry.2 < s.disk.nextInode)
    (h : s.step parse time collation query event = some t) :
    (∃ fails, event = .call fails ∧ t = { s with
      follower := s.follower.call parse time collation query s.disk fails }) ∨
    (t.follower = s.follower ∧ (∀ entry ∈ t.disk.names, entry.2 < t.disk.nextInode) ∧
      s.disk.nextInode ≤ t.disk.nextInode ∧
      ∀ i, ∃ bytes, t.disk.contents i = s.disk.contents i ++ bytes) := by
  have hsame : ∀ i, ∃ bytes, s.disk.contents i = s.disk.contents i ++ bytes :=
    fun i => ⟨[], (append_nil _).symm⟩
  cases event with
  | append inode bytes =>
    simp only [FollowWorld.step] at h
    split at h
    · cases h
      refine .inr ⟨rfl, hnamed, Nat.le_refl _, fun i => ?_⟩
      by_cases hi : i = inode
      · subst hi
        exact ⟨bytes, update_self ..⟩
      · exact ⟨[], (update_of_ne hi ..).trans (append_nil _).symm⟩
    · exact nomatch h
  | create name =>
    simp only [FollowWorld.step] at h
    split at h
    · exact nomatch h
    cases h
    refine .inr ⟨rfl, fun entry hentry => ?_, Nat.le_succ _, hsame⟩
    rcases mem_append.1 hentry with hold | hnew
    · exact Nat.lt_succ_of_lt (hnamed entry (mem_filter.1 hold).1)
    · rw [mem_singleton.1 hnew]
      exact Nat.lt_succ_self _
  | rename name name' =>
    simp only [FollowWorld.step] at h
    split at h
    · exact nomatch h
    next entry hentry =>
    cases h
    refine .inr ⟨rfl, fun other hother => ?_, Nat.le_refl _, hsame⟩
    rcases mem_append.1 hother with hold | hnew
    · exact hnamed other (mem_filter.1 (mem_filter.1 hold).1).1
    · rw [mem_singleton.1 hnew]
      exact hnamed entry (mem_of_find?_eq_some hentry)
  | remove name =>
    cases h
    exact .inr ⟨rfl, fun entry hentry => hnamed entry (mem_filter.1 hentry).1, Nat.le_refl _, hsame⟩
  | call fails => exact .inl ⟨fails, rfl, (Option.some.inj h).symm⟩

theorem Following.step (hs : Following parse time s)
    (hcap : s.disk.nextInode ≤ MAX_FOLLOW_IDENTITIES)
    (h : s.step parse time collation query event = some t) : Following parse time t := by
  rcases disk_step hs.named h with ⟨fails, -, rfl⟩ | ⟨hfollower, hnamed, hnext, hcontents⟩
  · exact hs.call hcap fails
  · obtain ⟨disk, follower⟩ := t
    obtain rfl : follower = s.follower := hfollower
    exact hs.disk disk hnamed hnext hcontents

end Guard

section Attention
variable {s t : FollowWorld Record} {event : FollowEvent}

def Remembered (s : FollowWorld Record) : Prop := s.disk.nextInode ≤ MAX_FOLLOW_IDENTITIES

/-- A baseline file ends with a whole line, and a poll has read what its listings named. -/
def Undisturbed (s : FollowWorld Record) (event : FollowEvent) : Prop :=
  (∀ path paths inode, event = .call false → s.follower.phase = .baselining (path :: paths) →
    s.disk.inode? path = some inode → AtLineEnd 10 (s.disk.contents inode)) ∧
  (∀ fails, event = .call fails → s.follower.phase = .walking [] →
    (s.follower.readAnyBytes = false ∨ s.follower.pass + 1 = MAX_FOLLOW_PASSES) →
      s.follower.pending = [])

/-- Every file was left at a line end, and what a poll listed it has read or has to read. -/
structure Attending (s : FollowWorld Record) : Prop where
  aligned : ∀ i, AtLineEnd 10 ((s.disk.contents i).take (s.follower.base i))
  caught : ∀ due ∈ s.follower.due, due.2 ≤ (s.disk.contents due.1).length ∧
    (due.1 ∈ s.follower.pending ∨ ∀ start line, s.follower.base due.1 ≤ start →
      LineAt 10 ((s.disk.contents due.1).take due.2) start line →
        (start, line) ∈ placed (s.follower.base due.1) (s.follower.seen due.1))
  settled : s.follower.phase = .sleeping → s.follower.pending = []
  early : (s.follower.phase = .starting ∨ ∃ paths, s.follower.phase = .baselining paths) →
    s.follower.due = [] ∧ s.follower.pending = []

theorem Attending.disk (ha : Attending s) (hs : Following parse time s) (disk : Disk)
    (hcontents : ∀ i, ∃ bytes, disk.contents i = s.disk.contents i ++ bytes) :
    Attending { s with disk := disk } := by
  have htake : ∀ i n, n ≤ (s.disk.contents i).length →
      (disk.contents i).take n = (s.disk.contents i).take n := fun i n hn => by
    obtain ⟨bytes, hbytes⟩ := hcontents i
    rw [hbytes, take_append_of_le_length hn]
  refine ⟨fun i => ?_, fun due hdue => ?_, ha.settled, ha.early⟩
  · obtain ⟨-, -, -, hle⟩ := hs.cursor i
    rw [htake i _ hle]
    exact ha.aligned i
  · obtain ⟨hle, hcaught⟩ := ha.caught due hdue
    rw [htake due.1 _ hle]
    refine ⟨?_, hcaught⟩
    obtain ⟨bytes, hbytes⟩ := hcontents due.1
    rw [hbytes, length_append]
    omega

theorem Attending.read {inode sizeBytes : Nat} {paths : List String} {fails : Bool}
    (ha : Attending s) (hs : Following parse time s)
    (hphase : s.follower.phase = .reading inode sizeBytes paths) :
    Attending { s with
      follower := s.follower.read parse (s.disk.contents inode) inode sizeBytes paths fails } := by
  obtain ⟨hinode, hsize⟩ := hs.opened inode sizeBytes paths hphase
  have hcursor := hs.cursor inode
  unfold Follower.read
  rw [carriedOffset_eq hsize]
  dsimp only
  cases hread : readNewLines (s.disk.contents inode)
      ((s.follower.state.lookup inode).getD 0) fails with
  | none =>
    exact ⟨ha.aligned, ha.caught, nofun, by rintro (h | ⟨_, h⟩) <;> exact nomatch h⟩
  | some found =>
    obtain ⟨lines, offset'⟩ := found
    have hworks : fails = false := by
      cases fails with
      | false => rfl
      | true => exact nomatch hread
    rw [hworks] at hread
    obtain ⟨-, hclean, tail, htext, htail⟩ := hcursor.read hread
    obtain ⟨-, -, -, hbase⟩ := hcursor
    refine ⟨ha.aligned, fun due hdue => ?_, nofun,
      by rintro (h | ⟨_, h⟩) <;> exact nomatch h⟩
    obtain ⟨hle, hcaught⟩ := ha.caught due hdue
    refine ⟨hle, ?_⟩
    dsimp only
    rw [update_apply]
    split
    · next heq =>
      refine .inr fun start line hstart hline => ?_
      rw [heq] at hstart hline ⊢
      have hwhole : s.disk.contents inode = (s.disk.contents inode).take (s.follower.base inode) ++
          (joined 10 (s.follower.seen inode ++ lines) ++ tail) := by
        rw [← htext, take_append_drop]
      have hlength : ((s.disk.contents inode).take (s.follower.base inode)).length =
          s.follower.base inode := length_take_of_le hbase
      have hfree : ∀ l ∈ s.follower.seen inode ++ lines, (10 : UInt8) ∉ l := fun l hl =>
        (mem_append.1 hl).elim (hs.clean inode l) (hclean l)
      have hwholeLine := hline.of_take
      rw [hwhole] at hwholeLine
      rw [← hlength] at hstart ⊢
      exact placed_of_lineAt hfree htail hstart hwholeLine
    · next hne =>
      refine hcaught.imp_left fun hpending => ?_
      exact mem_filter.2 ⟨hpending, decide_eq_true hne⟩

theorem Attending.call {fails : Bool} (ha : Attending s) (hs : Following parse time s)
    (hundisturbed : Undisturbed s (.call fails)) :
    Attending { s with follower := s.follower.call parse time collation query s.disk fails } := by
  unfold Follower.call
  cases hphase : s.follower.phase with
  | starting =>
    exact ⟨ha.aligned, ha.caught, nofun, fun _ => ha.early (.inl hphase)⟩
  | baselining paths =>
    have hearly := ha.early (.inr ⟨paths, hphase⟩)
    cases paths with
    | nil =>
      exact ⟨ha.aligned, ha.caught, fun _ => hearly.2, by rintro (h | ⟨_, h⟩) <;> exact nomatch h⟩
    | cons path paths =>
      dsimp only
      split
      · exact ⟨ha.aligned, ha.caught, nofun, fun _ => hearly⟩
      next inode hinode =>
      have hcall : fails = false ∧ s.disk.inode? path = some inode := by
        cases fails with
        | false => exact ⟨rfl, hinode⟩
        | true => exact nomatch hinode
      obtain ⟨rfl, hopen⟩ := hcall
      refine ⟨fun i => ?_, fun due hdue => ?_, nofun, fun _ => hearly⟩
      · dsimp only
        rw [update_apply]
        split
        · next heq =>
          subst heq
          rw [take_length]
          exact hundisturbed.1 path paths i rfl hphase hopen
        · exact ha.aligned i
      · rw [hearly.1] at hdue
        exact nomatch hdue
  | sleeping =>
    exact ⟨ha.aligned, nofun, nofun, by rintro (h | ⟨_, h⟩) <;> exact nomatch h⟩
  | listing =>
    refine ⟨ha.aligned, fun due hdue => ?_, nofun,
      by rintro (h | ⟨_, h⟩) <;> exact nomatch h⟩
    rcases mem_append.1 hdue with hold | hnew
    · obtain ⟨hle, hcaught⟩ := ha.caught due hold
      exact ⟨hle, hcaught.imp_left fun h => mem_append_left _ h⟩
    · refine ⟨?_, .inl (mem_append_right _ (mem_map_of_mem hnew))⟩
      obtain ⟨inode, -, rfl⟩ := mem_map.1 hnew
      exact Nat.le_refl _
  | walking paths =>
    cases paths with
    | nil =>
      dsimp only
      split
      · next hends =>
        exact ⟨ha.aligned, ha.caught, fun _ => hundisturbed.2 fails rfl hphase hends,
          by rintro (h | ⟨_, h⟩) <;> exact nomatch h⟩
      · exact ⟨ha.aligned, ha.caught, nofun, by rintro (h | ⟨_, h⟩) <;> exact nomatch h⟩
    | cons path paths =>
      dsimp only
      split
      · exact ⟨ha.aligned, ha.caught, nofun, by rintro (h | ⟨_, h⟩) <;> exact nomatch h⟩
      · exact ⟨ha.aligned, ha.caught, nofun, by rintro (h | ⟨_, h⟩) <;> exact nomatch h⟩
  | reading inode sizeBytes paths => exact ha.read hs hphase

theorem Attending.step (ha : Attending s) (hs : Following parse time s)
    (hundisturbed : Undisturbed s event) (h : s.step parse time collation query event = some t) :
    Attending t := by
  rcases disk_step hs.named h with ⟨fails, rfl, rfl⟩ | ⟨hfollower, -, -, hcontents⟩
  · exact ha.call hs hundisturbed
  · obtain ⟨disk, follower⟩ := t
    obtain rfl : follower = s.follower := hfollower
    exact ha.disk hs disk hcontents

end Attention

section Law

/-- A follower starts over a directory whose names are of files that exist. -/
def FollowWorld.Initial (s : FollowWorld Record) : Prop :=
  s.follower = {} ∧ ∀ entry ∈ s.disk.names, entry.2 < s.disk.nextInode

structure DeliveredOnce (time : Record → Rat) (s : FollowWorld Record) : Prop where
  once : (s.follower.delivered.flatten.map Delivery.line).Nodup
  ordered : ∀ batch ∈ s.follower.delivered,
    batch.Pairwise fun left right => time left.record ≤ time right.record

/-- What is delivered is a whole line's record, by the first poll that lists its file. -/
structure DeliveredPromptly (parse : LineReader Record) (s : FollowWorld Record) : Prop where
  whole : ∀ d ∈ s.follower.delivered.flatten, ∃ line,
    LineAt 10 (s.disk.contents d.inode) d.start line ∧ parse line = some d.record
  prompt : s.follower.phase = .sleeping → ∀ due ∈ s.follower.due, ∀ start line record,
    s.follower.base due.1 ≤ start → LineAt 10 ((s.disk.contents due.1).take due.2) start line →
      parse line = some record → ⟨due.1, start, record⟩ ∈ s.follower.delivered.flatten

variable {s₀ s : FollowWorld Record} {events : List FollowEvent}

theorem Following.initial (h : s.Initial) : Following parse time s := by
  obtain ⟨hidle, hnamed⟩ := h
  obtain ⟨disk, follower⟩ := s
  obtain rfl : follower = {} := hidle
  exact ⟨hnamed, nofun, nodup_nil, fun i => ⟨_, rfl, rfl, Nat.zero_le _⟩, nofun, nofun,
    nofun, nodup_nil, nofun, nofun,
    fun _ _ => rfl, fun _ _ => rfl, fun _ => rfl⟩

theorem Attending.initial (h : s.Initial) : Attending s := by
  obtain ⟨disk, follower⟩ := s
  obtain rfl : follower = {} := h.1
  exact ⟨fun i => .inl rfl, nofun, nofun, fun _ => ⟨rfl, rfl⟩⟩

theorem Following.deliveredOnce (hs : Following parse time s) : DeliveredOnce time s where
  once := by
    have honce := hs.once
    rw [map_append] at honce
    exact (nodup_append.1 honce).1
  ordered := hs.ordered

theorem Attending.deliveredPromptly (ha : Attending s) (hs : Following parse time s) :
    DeliveredPromptly parse s where
  whole d hd := by
    obtain ⟨line, hline, hrecord⟩ := hs.only d (mem_append_left _ hd)
    obtain ⟨rest, htext, -, hle⟩ := hs.cursor d.inode
    have hlength := length_take_of_le hle
    refine ⟨line, ?_, hrecord⟩
    rw [← hlength] at hline
    have hfound : LineAt 10 ((s.disk.contents d.inode).take (s.follower.base d.inode) ++
        (joined 10 (s.follower.seen d.inode) ++ rest)) d.start line :=
      lineAt_of_placed (ha.aligned d.inode) (hs.clean d.inode) hline
    rwa [← htext, take_append_drop] at hfound
  prompt hphase due hdue start line record hstart hline hrecord := by
    have hpending : due.1 ∉ s.follower.pending := by
      rw [ha.settled hphase]
      exact not_mem_nil
    have hcaught := ((ha.caught due hdue).2.resolve_left hpending) start line hstart hline
    have hdelivered := hs.every due.1 start line record hcaught hrecord
    rwa [hs.idle hphase, append_nil] at hdelivered

/-- No line is delivered twice, each poll in time order; where the baseline ends at line ends and
each poll reads what it listed, every whole line is delivered by the first poll that lists it. -/
theorem follower_delivers
    (h : Run (fun s event t => Remembered s ∧ s.step parse time collation query event = some t)
      s₀ events s) (h₀ : s₀.Initial) :
    DeliveredOnce time s ∧
      (Run (fun s event t => Remembered s ∧ Undisturbed s event ∧
          s.step parse time collation query event = some t) s₀ events s →
        DeliveredPromptly parse s) := by
  constructor
  · have hs : Following parse time s :=
      h.invariant (I := Following parse time) (fun _ _ _ hs hstep => hs.step hstep.1 hstep.2)
        (.initial h₀)
    exact hs.deliveredOnce
  · intro hattended
    have hboth : Following parse time s ∧ Attending s :=
      hattended.invariant (I := fun s => Following parse time s ∧ Attending s)
        (fun _ _ _ hs hstep => ⟨hs.1.step hstep.1 hstep.2.2, hs.2.step hs.1 hstep.2.1 hstep.2.2⟩)
        ⟨.initial h₀, .initial h₀⟩
    exact hboth.2.deliveredPromptly hboth.1

def codePoints : Collation where
  localeCompare := compare
  lawful := transCmp_compare

def oneFile : FollowWorld (List UInt8) where
  disk := {
    dir := "logs"
    names := [("app.log", 0)]
    distinct := nodup_singleton _
    contents := fun _ => []
    nextInode := 1 }
  follower := {}

def bothFiles : FollowQuery := { files := ["logs/app.log.1", "logs/app.log"] }

def calls (count : Nat) : List FollowEvent := replicate count (.call false)

def renamedBehind : List FollowEvent :=
  calls 4 ++ [.append 0 [65, 10]] ++ calls 3 ++ [.rename "app.log" "app.log.1"] ++ calls 2

/-- Whether the next call meets the conditions. -/
def attends (s : FollowWorld Record) : FollowEvent → Bool
  | .call fails =>
    match s.follower.phase with
    | .baselining (path :: _) =>
      match s.disk.inode? path with
      | some inode => fails || decide (s.disk.contents inode = []) ||
        decide ((s.disk.contents inode).getLast? = some 10)
      | none => true
    | .walking [] => (s.follower.readAnyBytes && decide (s.follower.pass + 1 ≠ MAX_FOLLOW_PASSES)) ||
        s.follower.pending.isEmpty
    | _ => true
  | _ => true

theorem undisturbed_of_attends {s : FollowWorld Record} {event : FollowEvent}
    (h : attends s event = true) : Undisturbed s event := by
  constructor
  · rintro path paths inode rfl hphase hinode
    simp only [attends, hphase, hinode, Bool.false_or, Bool.or_eq_true, decide_eq_true_iff] at h
    exact h
  · rintro fails rfl hphase hends
    simp only [attends, hphase, Bool.or_eq_true, Bool.and_eq_true, decide_eq_true_iff,
      List.isEmpty_iff] at h
    rcases h with ⟨hany, hmore⟩ | hpending
    · rcases hends with hnone | hlast
      · rw [hnone] at hany
        exact nomatch hany
      · exact absurd hlast hmore
    · exact hpending

def runFrom (attended : Bool) (events : List FollowEvent) : Option (FollowWorld (List UInt8)) :=
  events.foldlM (fun s event =>
    if s.disk.nextInode ≤ MAX_FOLLOW_IDENTITIES ∧ (attended = true → attends s event = true) then
      s.step some (fun _ => 0) codePoints bothFiles event
    else none) oneFile

theorem run_of_runFrom {attended : Bool} {events : List FollowEvent}
    {s : FollowWorld (List UInt8)} (h : runFrom attended events = some s) :
    Run (fun s event t => Remembered s ∧ (attended = true → Undisturbed s event) ∧
      s.step some (fun _ => 0) codePoints bothFiles event = some t) oneFile events s := by
  refine (Run.of_foldlM h).mono fun s event t hstep => ?_
  split at hstep
  · next hcheck => exact ⟨hcheck.1, fun h => undisturbed_of_attends (hcheck.2 h), hstep⟩
  · exact nomatch hstep

def renamedBehindEnd : FollowWorld (List UInt8) := (runFrom false renamedBehind).getD oneFile

theorem initial_oneFile : oneFile.Initial := by
  refine ⟨rfl, fun entry hentry => ?_⟩
  rw [mem_singleton.1 hentry]
  exact Nat.zero_lt_one

/-- The poll is over, and a line its listed file held is not delivered. -/
theorem listed_line_not_delivered :
    ¬ ∀ (parse : LineReader (List UInt8)) (time : List UInt8 → Rat) (collation : Collation)
      (query : FollowQuery) (s₀ s : FollowWorld (List UInt8)) (events : List FollowEvent),
      Run (fun s event t => Remembered s ∧ s.step parse time collation query event = some t)
        s₀ events s → s₀.Initial → DeliveredOnce time s ∧ DeliveredPromptly parse s := by
  intro hclaim
  have hrun : runFrom false renamedBehind = some renamedBehindEnd := rfl
  obtain ⟨-, hprompt⟩ := hclaim some (fun _ => 0) codePoints bothFiles oneFile renamedBehindEnd
    renamedBehind ((run_of_runFrom hrun).mono fun _ _ _ h => ⟨h.1, h.2.2⟩) initial_oneFile
  have hdelivered := hprompt.prompt rfl (0, 2) (.head _) 0 [65] [65]
    (Nat.le_refl _) ⟨[], [], rfl, rfl, by decide, .inl rfl⟩ rfl
  have hempty : ∃ before, renamedBehindEnd.follower.delivered = [List.mergeSort [] before] :=
    ⟨_, rfl⟩
  obtain ⟨before, hbatch⟩ := hempty
  rw [hbatch, mergeSort_nil] at hdelivered
  exact nomatch hdelivered

def rotated : List FollowEvent :=
  calls 4 ++ [.append 0 [65, 10, 66]] ++ calls 11 ++
    [.rename "app.log" "app.log.1", .create "app.log", .append 0 [10], .append 1 [67, 10]] ++ calls 13

def rotatedEnd : FollowWorld (List UInt8) := (runFrom true rotated).getD oneFile

/-- A line half written at the first poll is finished after the rotation. -/
theorem follower_delivers_rotated :
    rotatedEnd.follower.seen 0 = [[65], [66]] ∧ rotatedEnd.follower.seen 1 = [[67]] ∧
      DeliveredPromptly some rotatedEnd := by
  have hrun : runFrom true rotated = some rotatedEnd := rfl
  have hattended := run_of_runFrom hrun
  refine ⟨by decide +kernel, by decide +kernel, ?_⟩
  exact (follower_delivers (hattended.mono fun _ _ _ h => ⟨h.1, h.2.2⟩) initial_oneFile).2
    (hattended.mono fun _ _ _ h => ⟨h.1, h.2.1 rfl, h.2.2⟩)

end Law
end Rolebox.Log
