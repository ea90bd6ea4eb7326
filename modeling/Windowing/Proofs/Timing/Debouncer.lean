import Mathlib
import Windowing.Proofs.Calls
import Windowing.Timing.Debouncer

/-!
# What settles

A debouncer keeps its latest value and its deadline apart, and the value outlives the deadline. A
value waits if both are there (`waiting`). A deadline without a value, or one in a debouncer that
is disposed of, never comes about (`Sound`, kept by every request: `Sound.apply`). So what settles
when the time is up is always a value (`Sound.settle_isSome`).

Both ways of asking come down to one (`settleIf`). A debouncer that is asked has nothing to give
while nothing waits (`settleIf_of_rest`); otherwise it gives what waits if that is due, and then
holds it without a deadline (`settleIf_of_waiting`). What a request does is said once for a
debouncer that is live (`apply_of_live`) and once for one that is disposed of
(`apply_of_disposed`): what is kept, and what waits after it.
-/

namespace Windowing

namespace Debouncer

variable {ι β : Type} {d : Debouncer ι β} {r : Request β} {x : β} {due : Nat}

/-! ## The value that waits -/

/-- The value that waits, with the time when it is due. -/
def waiting (d : Debouncer ι β) : Option (β × Nat) :=
  d.latest.bind fun x => d.deadline.map fun due => (x, due)

theorem waiting_eq_some :
    d.waiting = some (x, due) ↔ d.latest = some x ∧ d.deadline = some due := by
  simp [waiting, Option.bind_eq_some_iff]

theorem isPending_of_waiting (h : d.waiting = some (x, due)) : d.isPending = true := by
  rw [isPending, (waiting_eq_some.mp h).2]
  rfl

theorem waiting_of_rest (h : d.isPending = false) : d.waiting = none := by
  have hdeadline : d.deadline = none := by simpa [isPending] using h
  simp [waiting, hdeadline]

theorem notify_of_live (hd : d.disposed = false) (x : β) (now : Nat) :
    d.notify x now = { d with latest := some x, deadline := some (Count.add now d.delay) } := by
  simp [notify, hd]

theorem sync_of_live (hd : d.disposed = false) (x : β) :
    d.sync x = { d with latest := some x, deadline := none } := by
  simp [sync, hd]

/-! ## Settling -/

/-- Lets the latest value settle if the deadline is there and up by `isDue`. -/
def settleIf (d : Debouncer ι β) (isDue : Nat → Bool) :
    Step (Debouncer ι β) (Call ι β) (Option β) :=
  if !d.disposed && d.deadline.any isDue then d.settle else .quiet d none

theorem poll_eq (d : Debouncer ι β) (now : Nat) : d.poll now = d.settleIf (· ≤ now) := by
  unfold poll settleIf
  cases hd : d.disposed with
  | true => rfl
  | false =>
      cases hdeadline : d.deadline with
      | none => rfl
      | some due => by_cases h : due ≤ now <;> simp [h]

theorem flush_eq (d : Debouncer ι β) : d.flush = d.settleIf fun _ => true := by
  unfold flush settleIf
  cases hd : d.disposed <;> cases hdeadline : d.deadline <;> rfl

theorem settle_eq (d : Debouncer ι β) :
    d.settle = ⟨d.cancel, d.latest.elim [] fun x => Call.deliver d.listener x, d.latest⟩ := by
  unfold settle
  cases hlatest : d.latest <;> simp [Step.quiet, cancel, hlatest]

theorem settleIf_of_rest (h : d.isPending = false) (isDue : Nat → Bool) :
    d.settleIf isDue = .quiet d none := by
  have hdeadline : d.deadline = none := by simpa [isPending] using h
  simp [settleIf, hdeadline]

theorem settleIf_of_waiting (hd : d.disposed = false) (hw : d.waiting = some (x, due))
    (isDue : Nat → Bool) :
    d.settleIf isDue =
      if isDue due then ⟨d.cancel, Call.deliver d.listener x, some x⟩ else .quiet d none := by
  obtain ⟨hlatest, hdeadline⟩ := waiting_eq_some.mp hw
  simp [settleIf, settle_eq, hd, hlatest, hdeadline]

theorem settleIf_eq_some {isDue : Nat → Bool} :
    (d.settleIf isDue).result = some x
      ↔ d.disposed = false ∧ ∃ due, d.waiting = some (x, due) ∧ isDue due = true := by
  simp only [waiting_eq_some]
  unfold settleIf
  split
  · rename_i hguard
    rw [Bool.and_eq_true, Bool.not_eq_true', Option.any_eq_true] at hguard
    obtain ⟨hd, due, hdeadline, hdue⟩ := hguard
    simp [settle_eq, hd, hdeadline, hdue]
  · rename_i hguard
    refine iff_of_false (fun h => by cases h) ?_
    rintro ⟨hd, due, ⟨-, hdeadline⟩, hdue⟩
    exact hguard (by simp [hd, hdeadline, hdue])

theorem settleIf_calls (d : Debouncer ι β) (isDue : Nat → Bool) :
    Call.ForEach d.listener (d.settleIf isDue).result.toList (d.settleIf isDue).events := by
  unfold settleIf
  split
  · rw [settle_eq]
    cases d.latest with
    | none => exact Call.forEach_nil d.listener
    | some x => exact Call.forEach_deliver d.listener x
  · exact Call.forEach_nil d.listener

theorem settleIf_kept (d : Debouncer ι β) (isDue : Nat → Bool) :
    (d.settleIf isDue).state.delay = d.delay ∧ (d.settleIf isDue).state.listener = d.listener
      ∧ (d.settleIf isDue).state.disposed = d.disposed
      ∧ (d.settleIf isDue).state.latest = d.latest
      ∧ (d.settleIf isDue).state.waiting
        = if (d.settleIf isDue).result.isSome then none else d.waiting := by
  unfold settleIf
  split
  · rw [settle_eq]
    refine ⟨rfl, rfl, rfl, rfl, ?_⟩
    cases hlatest : d.latest <;> simp [waiting, cancel, hlatest]
  · exact ⟨rfl, rfl, rfl, rfl, rfl⟩

theorem poll_state_of_some {now : Nat} (h : (d.poll now).result = some x) :
    (d.poll now).state = d.cancel := by
  rw [poll_eq, settleIf] at h ⊢
  split
  · rw [settle_eq]
  · rename_i hguard
    rw [if_neg hguard] at h
    cases h

theorem poll_kept (d : Debouncer ι β) (now : Nat) :
    (d.poll now).state.delay = d.delay ∧ (d.poll now).state.disposed = d.disposed
      ∧ ((d.poll now).result = none → (d.poll now).state.waiting = d.waiting) := by
  rw [poll_eq]
  obtain ⟨hdelay, -, hdisposed, -, hwaiting⟩ := d.settleIf_kept (· ≤ now)
  refine ⟨hdelay, hdisposed, fun hnone => ?_⟩
  rw [hwaiting, hnone]
  rfl

/-! ## Requests -/

/-- The value that a request brings along. -/
def Request.value? : Request β → Option β
  | .notify x _ => some x
  | .sync x => some x
  | _ => none

def Request.isDispose : Request β → Bool
  | .dispose => true
  | _ => false

/-- Whether a value that is due at some time may settle by this request. -/
def Request.Reaches (due : Nat) : Request β → Prop
  | .poll now => due ≤ now
  | .flush => True
  | _ => False

theorem isDispose_iff : r.isDispose = true ↔ r = .dispose := by
  cases r <;> simp [Request.isDispose]

theorem apply_poll (d : Debouncer ι β) (now : Nat) :
    d.apply (.poll now) = d.settleIf (· ≤ now) := poll_eq d now

theorem apply_flush (d : Debouncer ι β) : d.apply .flush = d.settleIf fun _ => true := flush_eq d

theorem apply_result_eq_some :
    (d.apply r).result = some x
      ↔ d.disposed = false ∧ ∃ due, d.waiting = some (x, due) ∧ r.Reaches due := by
  cases r with
  | poll now => simp [apply_poll, settleIf_eq_some, Request.Reaches]
  | flush => simp [apply_flush, settleIf_eq_some, Request.Reaches]
  | _ => simp [apply, Request.Reaches]

/-- The listener is told of what is answered. -/
theorem apply_calls (d : Debouncer ι β) (r : Request β) :
    Call.ForEach d.listener (d.apply r).result.toList (d.apply r).events := by
  cases r with
  | poll now =>
      rw [apply_poll]
      exact settleIf_calls d _
  | flush =>
      rw [apply_flush]
      exact settleIf_calls d _
  | _ => exact Call.forEach_nil d.listener

/-- What waits after a request and its answer. -/
def waitingAfter (d : Debouncer ι β) (r : Request β) (answer : Option β) : Option (β × Nat) :=
  match r with
  | .notify x now => some (x, Count.add now d.delay)
  | .poll _ | .flush => if answer.isSome then none else d.waiting
  | .sync _ | .cancel | .dispose => none

theorem apply_of_live (hd : d.disposed = false) (r : Request β) :
    (d.apply r).state.delay = d.delay ∧ (d.apply r).state.listener = d.listener
      ∧ (d.apply r).state.disposed = r.isDispose
      ∧ (d.apply r).state.latest = r.value?.or d.latest
      ∧ (d.apply r).state.waiting = d.waitingAfter r (d.apply r).result := by
  cases r with
  | notify x now =>
      rw [apply, notify_of_live hd]
      exact ⟨rfl, rfl, hd, rfl, rfl⟩
  | sync x =>
      rw [apply, sync_of_live hd]
      exact ⟨rfl, rfl, hd, rfl, rfl⟩
  | cancel => exact ⟨rfl, rfl, hd, rfl, waiting_of_rest rfl⟩
  | dispose => exact ⟨rfl, rfl, rfl, rfl, waiting_of_rest rfl⟩
  | poll now =>
      rw [apply_poll]
      obtain ⟨hdelay, hlistener, hdisposed, hlatest, hwaiting⟩ := settleIf_kept d (· ≤ now)
      exact ⟨hdelay, hlistener, hdisposed.trans hd, hlatest, hwaiting⟩
  | flush =>
      rw [apply_flush]
      obtain ⟨hdelay, hlistener, hdisposed, hlatest, hwaiting⟩ := settleIf_kept d fun _ => true
      exact ⟨hdelay, hlistener, hdisposed.trans hd, hlatest, hwaiting⟩

/-- A debouncer that is disposed of takes in nothing, and nothing waits in it for good. -/
theorem apply_of_disposed (hd : d.disposed = true) (hw : d.waiting = none) (r : Request β) :
    (d.apply r).state.delay = d.delay ∧ (d.apply r).state.listener = d.listener
      ∧ (d.apply r).state.disposed = true ∧ (d.apply r).state.latest = d.latest
      ∧ (d.apply r).state.waiting = none := by
  cases r with
  | notify x now =>
      rw [show (d.apply (.notify x now)).state = d from if_pos hd]
      exact ⟨rfl, rfl, hd, rfl, hw⟩
  | sync x =>
      rw [show (d.apply (.sync x)).state = d from if_pos hd]
      exact ⟨rfl, rfl, hd, rfl, hw⟩
  | cancel => exact ⟨rfl, rfl, hd, rfl, waiting_of_rest rfl⟩
  | dispose => exact ⟨rfl, rfl, rfl, rfl, waiting_of_rest rfl⟩
  | poll now =>
      rw [apply_poll]
      obtain ⟨hdelay, hlistener, hdisposed, hlatest, hwaiting⟩ := settleIf_kept d (· ≤ now)
      rw [hw, ite_self] at hwaiting
      exact ⟨hdelay, hlistener, hdisposed.trans hd, hlatest, hwaiting⟩
  | flush =>
      rw [apply_flush]
      obtain ⟨hdelay, hlistener, hdisposed, hlatest, hwaiting⟩ := settleIf_kept d fun _ => true
      rw [hw, ite_self] at hwaiting
      exact ⟨hdelay, hlistener, hdisposed.trans hd, hlatest, hwaiting⟩

/-! ## Deadlines come with values -/

/-- The deadline belongs to the latest value, and to a debouncer that is live. -/
structure Sound (d : Debouncer ι β) : Prop where
  latest_isSome : d.isPending = true → d.latest.isSome = true
  live : d.isPending = true → d.disposed = false

namespace Sound

theorem of_rest (h : d.isPending = false) : d.Sound where
  latest_isSome := by simp [h]
  live := by simp [h]

theorem settleIf (h : d.Sound) (isDue : Nat → Bool) : (d.settleIf isDue).state.Sound := by
  unfold Debouncer.settleIf
  split
  · rw [settle_eq]
    exact of_rest rfl
  · exact h

theorem notify (h : d.Sound) (x : β) (now : Nat) : (d.notify x now).Sound := by
  unfold Debouncer.notify
  split
  · exact h
  · rename_i hlive
    exact ⟨fun _ => rfl, fun _ => Bool.not_eq_true _ ▸ hlive⟩

theorem sync (h : d.Sound) (x : β) : (d.sync x).Sound := by
  unfold Debouncer.sync
  split
  · exact h
  · exact of_rest rfl

theorem apply (h : d.Sound) (r : Request β) : (d.apply r).state.Sound := by
  cases r with
  | notify x now => exact h.notify x now
  | sync x => exact h.sync x
  | cancel => exact of_rest rfl
  | dispose => exact of_rest rfl
  | poll now =>
      rw [apply_poll]
      exact h.settleIf _
  | flush =>
      rw [apply_flush]
      exact h.settleIf _

theorem waiting (h : d.Sound) (hd : d.deadline = some due) : ∃ x, d.waiting = some (x, due) := by
  obtain ⟨x, hlatest⟩ := Option.isSome_iff_exists.mp (h.latest_isSome (by rw [isPending, hd]; rfl))
  exact ⟨x, waiting_eq_some.mpr ⟨hlatest, hd⟩⟩

theorem deadline_iff (h : d.Sound) : d.deadline = some due ↔ ∃ x, d.waiting = some (x, due) := by
  constructor
  · exact h.waiting
  · rintro ⟨x, hwaiting⟩
    exact (waiting_eq_some.mp hwaiting).2

/-- Letting the value settle that a deadline is there for never comes to nothing. -/
theorem settle_isSome (h : d.Sound) (hd : d.isPending = true) : d.settle.result.isSome = true := by
  rw [settle_eq]
  exact h.latest_isSome hd

/-- Disposing of a debouncer twice is disposing of it once. -/
theorem dispose_of_disposed (h : d.Sound) (hd : d.disposed = true) : d.dispose = d := by
  have hrest : d.isPending = false := by
    rw [← Bool.not_eq_true]
    intro hpending
    rw [h.live hpending] at hd
    cases hd
  have hdeadline : d.deadline = none := by simpa [isPending] using hrest
  rw [dispose, ← hd, ← hdeadline]

end Sound

end Debouncer

end Windowing
