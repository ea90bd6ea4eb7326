import Windowing.Proofs.WindowedList.Batching

/-!
# Copies and the batches around them

A copy is the list as it was, with its record of the batches around it, although no batch
runs on the copy itself. `Descends k n l` follows both numbers: `k` batches run on `l`, and
`n` ran where it, or what it was copied from, was copied. The depth that a list records is
their sum, as long as it can be counted (`Descends.record`).

A list tells its listener of a change exactly if the depth is zero after it (`apply_events`,
`batch_events`). So a copy that was taken outside of batches tells of every change, and one
that was taken inside a batch never tells of any (`copy_notifies_outside_batches`): no batch
on it ends at depth zero.
-/

namespace Windowing

namespace WindowedList

variable {ι α : Type} {l : WindowedList ι α} {k n : Nat}

/-! ## When a list tells of a change -/

theorem inBatch_self (l : WindowedList ι α) : l.inBatch l.batchDepth l.changePending = l := rfl

theorem apply_record (l : WindowedList ι α) (u : Update ι α) :
    (l.apply u).state.batchDepth = l.batchDepth
      ∧ (l.apply u).state.changePending
        = (l.changePending || (l.isEffective u && decide (0 < l.batchDepth))) := by
  have hstate := apply_inBatch l u l.batchDepth l.changePending
  rw [inBatch_self] at hstate
  rw [hstate]
  exact ⟨rfl, rfl⟩

theorem apply_events (l : WindowedList ι α) (u : Update ι α) :
    (l.apply u).events =
      if l.isEffective u = true ∧ l.batchDepth = 0 then (l.apply u).state.announce else [] := by
  by_cases hd : l.batchDepth = 0
  · cases he : l.isEffective u with
    | true =>
        obtain ⟨hstate, hevents⟩ := apply_of_effective he
        have hnotify : (l.edit u).refresh.notify
            = ⟨(l.edit u).refresh, (l.edit u).refresh.announce, ()⟩ := by
          have hdepth : (l.edit u).refresh.batchDepth = 0 := (edit_batchDepth l u).trans hd
          rw [notify, if_neg (by omega)]
        rw [hevents, hstate, hnotify, if_pos ⟨rfl, hd⟩]
    | false => simp [(apply_of_ineffective he).2]
  · rw [apply_events_of_depth_pos (Nat.pos_of_ne_zero hd), if_neg (fun h => hd h.2)]

theorem perform_events_of_depth_pos {s : Script ι α} (h : 0 < l.batchDepth)
    (hn : l.batchDepth + s.nesting ≤ Count.limit) : (perform s l).events = [] :=
  (perform_inBatch s l l.changePending h hn).2

theorem closeBatch_events (l : WindowedList ι α) :
    l.closeBatch.events =
      if l.batchDepth - 1 = 0 ∧ l.changePending = true then l.closeBatch.state.announce
      else [] := by
  rw [closeBatch_eq]
  split <;> rfl

/-- A batch tells at its end, of what was pending before as well as of its own changes. -/
theorem batch_events {s : Script ι α} (hn : l.batchDepth + s.nesting < Count.limit) :
    (l.batch (perform s)).events =
      if l.batchDepth = 0 ∧ (l.changePending || changes s l.openBatch) = true then
        (l.batch (perform s)).state.announce
      else
        [] := by
  have hopen := openBatch_eq (l := l) (by omega)
  obtain ⟨hbody, hquiet⟩ :=
    perform_inBatch s l l.changePending (Nat.succ_pos l.batchDepth) (by omega)
  rw [← hopen] at hbody hquiet
  have hdepth : (perform s l.openBatch).state.batchDepth - 1 = l.batchDepth :=
    congrArg (fun m => m.batchDepth - 1) hbody
  have hpending : (perform s l.openBatch).state.changePending
      = (l.changePending || changes s l.openBatch) := congrArg (fun m => m.changePending) hbody
  have hevents : (l.batch (perform s)).events
      = (perform s l.openBatch).events ++ (perform s l.openBatch).state.closeBatch.events := rfl
  have hstate : (l.batch (perform s)).state
      = (perform s l.openBatch).state.closeBatch.state := rfl
  -- The body is silent as it runs inside, so what is told is told when the batch closes.
  rw [hevents, hstate, hquiet, List.nil_append, closeBatch_events, hdepth, hpending]

/-! ## Where lists come from -/

/-- The lists that operations and copying lead to. The first number counts the batches that
run on the list, the second those that ran where it was copied, together no more than can be
counted. -/
inductive Descends : Nat → Nat → WindowedList ι α → Prop where
  | create {items : Array α} {settings : ListSettings ι} {l : WindowedList ι α} :
      create items settings = .ok l → Descends 0 0 l
  | apply {k n : Nat} {l : WindowedList ι α} (u : Update ι α) :
      Descends k n l → Descends k n (l.apply u).state
  | openBatch {k n : Nat} {l : WindowedList ι α} :
      Descends k n l → k + n < Count.limit → Descends (k + 1) n l.openBatch
  | closeBatch {k n : Nat} {l : WindowedList ι α} :
      Descends (k + 1) n l → Descends k n l.closeBatch.state
  /-- The copy is the same value, and no batch runs on it yet. -/
  | copy {k n : Nat} {l : WindowedList ι α} : Descends k n l → Descends 0 (k + n) l

theorem closeBatch_record (l : WindowedList ι α) :
    l.closeBatch.state.batchDepth = l.batchDepth - 1
      ∧ (l.batchDepth - 1 = 0 → l.closeBatch.state.changePending = false) := by
  rw [closeBatch_eq]
  by_cases h : l.batchDepth - 1 = 0 ∧ l.changePending = true
  · rw [if_pos h]
    exact ⟨rfl, fun _ => rfl⟩
  · rw [if_neg h]
    refine ⟨rfl, fun hdepth => ?_⟩
    exact eq_false_of_ne_true (fun hpending => h ⟨hdepth, hpending⟩)

theorem create_idle {items : Array α} {settings : ListSettings ι}
    (h : create items settings = .ok l) :
    l.batchDepth = 0 ∧ l.changePending = false := by
  obtain ⟨-, -, rfl⟩ := SettingError.passed_of_map_eq_ok h
  exact ⟨rfl, rfl⟩

/-- The depth counts the batches that run on a list and those it brought along. At depth zero
nothing is pending. -/
theorem Descends.record (h : Descends k n l) :
    l.batchDepth = k + n ∧ (k + n = 0 → l.changePending = false) := by
  induction h with
  | create hc =>
      obtain ⟨hdepth, hpending⟩ := create_idle hc
      exact ⟨hdepth, fun _ => hpending⟩
  | @apply k n l u _ ih =>
      obtain ⟨hdepth, hpending⟩ := apply_record l u
      refine ⟨hdepth.trans ih.1, fun hzero => ?_⟩
      rw [hpending, ih.2 hzero, ih.1, hzero]
      simp
  | @openBatch k n l _ hcount ih =>
      refine ⟨?_, fun hzero => by omega⟩
      rw [openBatch_eq (by omega)]
      show l.batchDepth + 1 = _
      omega
  | @closeBatch k n l _ ih =>
      obtain ⟨hdepth, hpending⟩ := closeBatch_record l
      exact ⟨by omega, fun hzero => hpending (by omega)⟩
  | copy _ ih => simpa using ih

/-! ## What copies tell -/

/-- The list tells whoever listens of every change, once for each update and once for each
batch of them, in each case of the list as it is then. -/
structure Notifies (l : WindowedList ι α) : Prop where
  update : ∀ u, l.isEffective u = true →
    Call.ForEach (l.apply u).state.settings.listener [(l.apply u).state] (l.apply u).events
  batch : ∀ s, changes s l.openBatch = true → s.nesting < Count.limit →
    Call.ForEach (l.batch (perform s)).state.settings.listener [(l.batch (perform s)).state]
      (l.batch (perform s)).events

theorem notifies_of_depth_zero (h : l.batchDepth = 0) : l.Notifies where
  update := by
    intro u hu
    rw [apply_events, if_pos ⟨hu, h⟩]
    exact Call.forEach_deliver ..
  batch := by
    intro s hs hn
    rw [batch_events (by omega), if_pos ⟨h, by rw [hs, Bool.or_true]⟩]
    exact Call.forEach_deliver ..

/-- Whatever a list was put through: a copy of it notifies if no batch was running, on the list or
where the list was itself copied. Otherwise the copy tells nobody of anything, whatever is
done with it and in however many batches, as long as they can be counted. -/
theorem copy_notifies_outside_batches (h : Descends k n l) :
    Descends 0 (k + n) l ∧ (k + n = 0 → l.Notifies)
      ∧ (0 < k + n → ∀ s, k + n + s.nesting ≤ Count.limit → (perform s l).events = []) := by
  obtain ⟨hdepth, -⟩ := h.record
  refine ⟨h.copy, fun hzero => notifies_of_depth_zero (hdepth.trans hzero), fun hpos s hn => ?_⟩
  rw [← hdepth] at hpos hn
  exact perform_events_of_depth_pos hpos hn

/-- Inside two batches, and with a change pending. -/
theorem copy_notifies_outside_batches_nested :
    ∃ l m : WindowedList Nat Nat,
      create #[0, 1, 2] { itemExtent := 10.0, viewportExtent := 15.0, listener := some 7 } = .ok l
      ∧ m = (l.openBatch.apply (.scrollOffset 5.0)).state.openBatch
      ∧ m.changePending = true ∧ Descends 2 0 m
      ∧ (Descends 0 (0 + 0) l ∧ (0 + 0 = 0 → l.Notifies)
        ∧ (0 < 0 + 0 → ∀ s, 0 + 0 + s.nesting ≤ Count.limit → (perform s l).events = []))
      ∧ Descends 0 (2 + 0) m ∧ (2 + 0 = 0 → m.Notifies)
      ∧ (0 < 2 + 0 → ∀ s, 2 + 0 + s.nesting ≤ Count.limit → (perform s m).events = []) := by
  have h : create #[0, 1, 2] { itemExtent := 10.0, viewportExtent := 15.0, listener := some 7 }
      = .ok _ := rfl
  have hm := (((Descends.create h).openBatch (by decide)).apply (.scrollOffset 5.0)).openBatch
    (by decide)
  exact ⟨_, _, h, rfl, rfl, hm, copy_notifies_outside_batches (.create h),
    copy_notifies_outside_batches hm⟩

/-- A copy that was taken inside a batch. No batch runs on it and it moves, but whoever listens is
not told, not even at the end of a batch of its own. -/
theorem copy_taken_in_batch_silent :
    ∃ l c : WindowedList Nat Nat,
      create #[0, 1, 2] { itemExtent := 10.0, viewportExtent := 15.0, listener := some 7 } = .ok l
      ∧ c = l.openBatch ∧ Descends 0 1 c
      ∧ c.isEffective (.scrollOffset 20.0) = true
      ∧ (c.apply (.scrollOffset 20.0)).state.viewport.scrollOffset = 20.0
      ∧ (c.apply (.scrollOffset 20.0)).state.settings.listener = some 7
      ∧ (c.apply (.scrollOffset 20.0)).events = []
      ∧ (c.batch (perform (.update (.scrollOffset 20.0) .nil))).events = []
      ∧ ¬ c.Notifies := by
  have h : create #[0, 1, 2] { itemExtent := 10.0, viewportExtent := 15.0, listener := some 7 }
      = .ok _ := rfl
  have hcopy := ((Descends.create h).openBatch (by decide)).copy
  refine ⟨_, _, h, rfl, hcopy, rfl, rfl, rfl, rfl, rfl, ?_⟩
  intro hnotifies
  have htold := (hnotifies.update (.scrollOffset 20.0) rfl).installed 7 rfl
  cases htold

end WindowedList

end Windowing
