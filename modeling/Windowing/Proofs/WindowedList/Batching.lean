import Windowing.Proofs.Calls
import Windowing.Proofs.WindowedList.Changes

/-!
# Batches only coalesce notices

An update does the same to a list whether or not a batch is open around it, apart from the
record that something changed: `apply_inBatch` says so of one update, and
`perform_state_inBatch` of a whole script. So an outermost batch ends where the bare updates
end.

As for notices, inner batches neither clear nor report what is recorded, since the depth they
return to is not zero: a script inside a batch tells nobody and records whether it changed
something (`perform_inBatch`), and the outermost batch reports that once, at its end. The depth is
a count like others and stays at its limit, so this is said of scripts that have no more batches
open at once than can be counted (`Script.nesting`). That is no loss: an open batch is a call that
has not returned, and there is no room for so many. `batch_coalesces` puts both together.
-/

namespace Windowing

/-- How many batches a script has open at once, at most. -/
def Script.nesting {ι α : Type} : Script ι α → Nat
  | .nil => 0
  | .update _ rest => rest.nesting
  | .batch body rest => max (body.nesting + 1) rest.nesting

namespace WindowedList

variable {ι α : Type} {l : WindowedList ι α}

/-! ## One update -/

theorem isEffective_inBatch (l : WindowedList ι α) (u : Update ι α) (d : Nat) (p : Bool) :
    (l.inBatch d p).isEffective u = l.isEffective u := by
  cases u <;> rfl

theorem edit_inBatch (l : WindowedList ι α) (u : Update ι α) (d : Nat) (p : Bool) :
    (l.inBatch d p).edit u = (l.edit u).inBatch d p := by
  cases u <;> rfl

theorem keep_inBatch (l : WindowedList ι α) (u : Update ι α) (d : Nat) (p : Bool) :
    (l.inBatch d p).keep u = (l.keep u).inBatch d p := by
  cases u <;> rfl

/-- The batches around a list have no part in what an update does to it. In a batch, an
effective update is recorded. -/
theorem apply_inBatch (l : WindowedList ι α) (u : Update ι α) (d : Nat) (p : Bool) :
    ((l.inBatch d p).apply u).state
      = (l.apply u).state.inBatch d (p || (l.isEffective u && decide (0 < d))) := by
  have heff := isEffective_inBatch l u d p
  cases he : l.isEffective u with
  | true =>
      rw [he] at heff
      rw [(apply_of_effective he).1, (apply_of_effective heff).1, edit_inBatch, notify_state,
        notify_state, Bool.true_and]
      rfl
  | false =>
      rw [he] at heff
      rw [(apply_of_ineffective he).1, (apply_of_ineffective heff).1, keep_inBatch,
        Bool.false_and, Bool.or_false]

theorem edit_batchDepth (l : WindowedList ι α) (u : Update ι α) :
    (l.edit u).batchDepth = l.batchDepth := by
  cases u <;> rfl

theorem apply_events_of_depth_pos (h : 0 < l.batchDepth) (u : Update ι α) :
    (l.apply u).events = [] := by
  cases he : l.isEffective u with
  | true =>
      rw [(apply_of_effective he).2]
      refine notify_events_of_depth_pos ?_
      show 0 < (l.edit u).batchDepth
      rwa [edit_batchDepth]
  | false => exact (apply_of_ineffective he).2

/-! ## Outside batches -/

theorem apply_idle (hd : l.batchDepth = 0) (hp : l.changePending = false) (u : Update ι α) :
    (l.apply u).state.batchDepth = 0 ∧ (l.apply u).state.changePending = false := by
  have hself : l = l.inBatch 0 false := by rw [← hd, ← hp]; rfl
  have hstate := apply_inBatch l u 0 false
  rw [← hself, decide_eq_false (Nat.lt_irrefl 0), Bool.and_false, Bool.or_false] at hstate
  rw [hstate]
  exact ⟨rfl, rfl⟩

theorem run_idle :
    ∀ (us : List (Update ι α)) {l : WindowedList ι α},
      l.batchDepth = 0 → l.changePending = false →
      (Step.run apply l us).state.batchDepth = 0
        ∧ (Step.run apply l us).state.changePending = false
  | [], _, hd, hp => ⟨hd, hp⟩
  | u :: us, _, hd, hp => by
      obtain ⟨hd', hp'⟩ := apply_idle hd hp u
      exact run_idle us hd' hp'

/-- A list around which no batch is open stays so. -/
theorem inBatch_of_idle (hd : l.batchDepth = 0) (hp : l.changePending = false) :
    l.inBatch 0 false = l := by
  rw [← hd, ← hp]
  rfl

/-! ## The two ends of a batch -/

theorem openBatch_eq (h : l.batchDepth < Count.limit) :
    l.openBatch = l.inBatch (l.batchDepth + 1) l.changePending := by
  rw [openBatch, Count.add_of_le h]
  rfl

theorem closeBatch_state_inBatch (l : WindowedList ι α) (d : Nat) (p : Bool) :
    (l.inBatch d p).closeBatch.state = l.inBatch (d - 1) (p && decide (0 < d - 1)) := by
  rw [closeBatch_eq]
  have hdepth : (l.inBatch d p).batchDepth = d := rfl
  have hpending : (l.inBatch d p).changePending = p := rfl
  rw [hdepth, hpending]
  split
  · rename_i h
    rw [h.1]
    cases p <;> rfl
  · rename_i h
    have hkept : (p && decide (0 < d - 1)) = p := by
      cases p with
      | false => rfl
      | true =>
          have hpos : 0 < d - 1 := Nat.pos_of_ne_zero fun hzero => h ⟨hzero, rfl⟩
          rw [decide_eq_true hpos]
          rfl
    rw [hkept]
    rfl

/-- An inner batch returns to a depth above zero, so what it recorded stays recorded. -/
theorem closeBatch_inner (l : WindowedList ι α) {d : Nat} (hd : 0 < d) (p : Bool) :
    (l.inBatch (d + 1) p).closeBatch = .quiet (l.inBatch d p) () := by
  rw [closeBatch_eq, if_neg]
  · rfl
  · rintro ⟨hdepth, -⟩
    exact Nat.ne_of_gt hd hdepth

theorem closeBatch_outermost (l : WindowedList ι α) (p : Bool) :
    (l.inBatch 1 p).closeBatch
      = ⟨l.inBatch 0 false, if p then (l.inBatch 0 false).announce else [], ()⟩ := by
  rw [closeBatch_eq]
  cases p with
  | true => exact if_pos ⟨rfl, rfl⟩
  | false => exact if_neg (fun h => Bool.noConfusion h.2)

/-! ## Scripts -/

/-- Whether a script has an effective update at any depth, each judged by the list it is
applied to. -/
def changes : Script ι α → WindowedList ι α → Bool
  | .nil, _ => false
  | .update u rest, l => l.isEffective u || changes rest (l.apply u).state
  | .batch body rest, l => changes body l.openBatch || changes rest (l.batch (perform body)).state

/-- Whatever batches are open around it and in it, a script does to a list what its updates do, but
for the record of the batches. The depth is never left above where it was. -/
theorem perform_state_inBatch :
    ∀ (s : Script ι α) (l : WindowedList ι α) (d : Nat) (p : Bool), ∃ d' p', d' ≤ d
      ∧ (perform s (l.inBatch d p)).state = (Step.run apply l s.updates).state.inBatch d' p'
  | .nil, l, d, p => ⟨d, p, Nat.le_refl d, rfl⟩
  | .update u rest, l, d, p => by
      have hstate := apply_inBatch l u d p
      obtain ⟨d', p', hle, hrest⟩ := perform_state_inBatch rest (l.apply u).state d _
      refine ⟨d', p', hle, ?_⟩
      rw [perform, Step.andThen_state, hstate, hrest]
      rfl
  | .batch body rest, l, d, p => by
      obtain ⟨m, hm⟩ : ∃ m, m = (Step.run apply l body.updates).state := ⟨_, rfl⟩
      obtain ⟨d₁, p₁, hle₁, hbody⟩ := perform_state_inBatch body l (Count.add d 1) p
      obtain ⟨d', p', hle, hrest⟩ := perform_state_inBatch rest m (d₁ - 1) _
      have hbatch : ((l.inBatch d p).batch (perform body)).state
          = m.inBatch (d₁ - 1) (p₁ && decide (0 < d₁ - 1)) := by
        rw [hm, ← closeBatch_state_inBatch, ← hbody]
        rfl
      have hadd : Count.add d 1 ≤ d + 1 := Nat.min_le_left ..
      refine ⟨d', p', by omega, ?_⟩
      rw [perform, Step.andThen_state, hbatch, hrest, Script.updates, Step.run_append_state, hm]

/-- Inside a batch, a script records whether one of its updates was effective, and tells nobody. -/
theorem perform_inBatch :
    ∀ (s : Script ι α) (l : WindowedList ι α) {d : Nat} (p : Bool), 0 < d →
      d + s.nesting ≤ Count.limit →
      (perform s (l.inBatch d p)).state
          = (Step.run apply l s.updates).state.inBatch d (p || changes s (l.inBatch d p))
        ∧ (perform s (l.inBatch d p)).events = []
  | .nil, l, d, p, _, _ => by
      refine ⟨?_, rfl⟩
      rw [changes, Bool.or_false]
      rfl
  | .update u rest, l, d, p, hd, hn => by
      have hstate := apply_inBatch l u d p
      rw [decide_eq_true hd, Bool.and_true] at hstate
      obtain ⟨hrest, hquiet⟩ :=
        perform_inBatch rest (l.apply u).state (p || l.isEffective u) hd hn
      rw [perform, changes, isEffective_inBatch, hstate, ← Bool.or_assoc]
      refine ⟨?_, ?_⟩
      · rw [Step.andThen_state, hstate]
        exact hrest
      · rw [Step.andThen_events, hstate, hquiet, List.append_nil]
        exact apply_events_of_depth_pos hd u
  | .batch body rest, l, d, p, hd, hn => by
      rw [Script.nesting] at hn
      obtain ⟨hbody, hquiet⟩ := perform_inBatch body l p (Nat.succ_pos d) (by omega)
      have hlimit : d < Count.limit := by omega
      have hopen : (l.inBatch d p).openBatch = l.inBatch (d + 1) p :=
        openBatch_eq (l := l.inBatch d p) hlimit
      obtain ⟨q, hq⟩ : ∃ q, q = (p || changes body (l.inBatch (d + 1) p)) := ⟨_, rfl⟩
      obtain ⟨m, hm⟩ : ∃ m, m = (Step.run apply l body.updates).state := ⟨_, rfl⟩
      rw [← hq, ← hm] at hbody
      have hclose := closeBatch_inner m hd q
      have hbatch : ((l.inBatch d p).batch (perform body)).state = m.inBatch d q
          ∧ ((l.inBatch d p).batch (perform body)).events = [] := by
        rw [batch, hopen]
        refine ⟨?_, ?_⟩
        · rw [Step.andThen_state, hbody, hclose]
          rfl
        · rw [Step.andThen_events, hbody, hquiet, hclose]
          rfl
      obtain ⟨hrest, hquiet'⟩ := perform_inBatch rest m q hd (by omega)
      rw [perform, changes, hopen, hbatch.1, ← Bool.or_assoc, ← hq, Script.updates,
        Step.run_append_state, ← hm]
      refine ⟨?_, ?_⟩
      · rw [Step.andThen_state, hbatch.1]
        exact hrest
      · rw [Step.andThen_events, hbatch.1, hbatch.2, hquiet']
        rfl

/-! ## Outermost batches -/

theorem openBatch_of_idle (hd : l.batchDepth = 0) (hp : l.changePending = false) :
    l.openBatch = l.inBatch 1 false := by
  rw [openBatch_eq (by rw [hd]; decide), hd, hp]

theorem batch_state_of_idle (s : Script ι α) (hd : l.batchDepth = 0)
    (hp : l.changePending = false) :
    (l.batch (perform s)).state = (Step.run apply l s.updates).state := by
  obtain ⟨d, p, hle, hbody⟩ := perform_state_inBatch s l 1 false
  obtain ⟨hdepth, hpending⟩ := run_idle s.updates hd hp
  have hzero : d - 1 = 0 := by omega
  rw [batch, Step.andThen_state, Step.map_state, openBatch_of_idle hd hp, hbody,
    closeBatch_state_inBatch, hzero, decide_eq_false (Nat.lt_irrefl 0), Bool.and_false]
  exact inBatch_of_idle hdepth hpending

/-- What a script run as one outermost batch comes to. What is said of notices is said of scripts
whose batches can be counted. -/
structure Coalesces (l : WindowedList ι α) (s : Script ι α) : Prop where
  /-- The batch leaves the list as the bare updates leave it, -/
  state_eq : (l.batch (perform s)).state = (Step.run apply l s.updates).state
  /-- and outside any batch again. -/
  idle : (l.batch (perform s)).state.batchDepth = 0
    ∧ (l.batch (perform s)).state.changePending = false
  /-- Until the batch ends nobody is told. -/
  quiet : s.nesting < Count.limit → (perform s l.openBatch).events = []
  /-- At its end the listener that is then installed is told once, of the final list, if some
  update was effective. -/
  told : s.nesting < Count.limit →
    Call.ForEach (l.batch (perform s)).state.settings.listener
      (if changes s l.openBatch then [(l.batch (perform s)).state] else [])
      (l.batch (perform s)).events

/-- Whatever script is run as a batch on a list around which none is open: its notices are held
back and coalesced into one, and nothing else is different from running its updates. -/
theorem batch_coalesces (s : Script ι α) (hd : l.batchDepth = 0)
    (hp : l.changePending = false) : l.Coalesces s := by
  have hopen := openBatch_of_idle hd hp
  have hstate := batch_state_of_idle s hd hp
  obtain ⟨hdepth, hpending⟩ := run_idle s.updates hd hp
  refine ⟨hstate, ?_, fun hn => ?_, fun hn => ?_⟩
  · rw [hstate]
    exact ⟨hdepth, hpending⟩
  · rw [hopen]
    exact (perform_inBatch s l false Nat.one_pos (by omega)).2
  · obtain ⟨hbody, hquiet⟩ := perform_inBatch s l false Nat.one_pos (by omega)
    rw [Bool.false_or, ← hopen] at hbody
    have hclose := closeBatch_outermost (Step.run apply l s.updates).state (changes s l.openBatch)
    rw [inBatch_of_idle hdepth hpending] at hclose
    have hevents : (l.batch (perform s)).events
        = if changes s l.openBatch then (Step.run apply l s.updates).state.announce else [] := by
      rw [← hopen] at hquiet
      rw [batch, Step.andThen_events, Step.map_events, hquiet, hbody, hclose, List.nil_append]
    rw [hevents, hstate]
    split
    · exact Call.forEach_deliver ..
    · exact Call.forEach_nil _

/-- With an inner batch, and a listener that is installed after it. -/
theorem batch_coalesces_nested :
    ∃ (l : WindowedList Nat Nat) (s : Script Nat Nat),
      l.batchDepth = 0 ∧ l.changePending = false ∧ changes s l.openBatch = true
      ∧ s.updates = [.overscan 5, .items #[8, 9], .listener (some 7), .scrollOffset 3.0]
      ∧ s.nesting = 1
      ∧ (l.batch (perform s)).events = [⟨7, (l.batch (perform s)).state⟩]
      ∧ l.Coalesces s := by
  refine ⟨{ items := #[1], settings := { itemExtent := 10.0, viewportExtent := 15.0 }
            viewport := ⟨0.0, 15.0⟩, window := ⟨0, 1⟩, batchDepth := 0, changePending := false },
    .update (.overscan 5) (.batch (.update (.items #[8, 9]) .nil)
      (.update (.listener (some 7)) (.update (.scrollOffset 3.0) .nil))),
    rfl, rfl, rfl, rfl, rfl, ?_, batch_coalesces _ rfl rfl⟩
  exact ((batch_coalesces _ rfl rfl).told (by decide)).installed 7 rfl

end WindowedList

end Windowing
