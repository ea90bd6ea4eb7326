import Mathlib
import Windowing.Proofs.Calls
import Windowing.Timing.Throttle

/-!
# How often a throttle lets a value pass

The log of a throttle, its requests with their answers, tells when values passed
(`passTimes`). Between two resets these times keep the interval (`Spaced`), which bounds how
many of them fit between two points in time (`Spaced.length_le`), whatever the clock of the
host does. The throttle itself keeps one time only; `Follows` says that this is the time of
the last pass since the last reset, `Follows.step` that every request leaves it so, and
`limits_rate` reads the result off.
-/

namespace Windowing

/-! ## Times that keep a distance -/

/-- Every time is at least `d` later than each of those before it. -/
def Spaced (d : Nat) (times : List Nat) : Prop := times.Pairwise fun t t' => t + d ≤ t'

namespace Spaced

variable {d a b : Nat} {times : List Nat}

theorem concat (h : Spaced d times) {t : Nat}
    (hlast : ∀ last, times.getLast? = some last → last + d ≤ t) : Spaced d (times ++ [t]) := by
  refine List.pairwise_append.mpr ⟨h, List.pairwise_singleton .., ?_⟩
  intro s hs t' ht'
  obtain rfl := List.mem_singleton.mp ht'
  obtain ⟨init, last, rfl⟩ := (List.eq_nil_or_concat' times).resolve_left (List.ne_nil_of_mem hs)
  have hle := hlast last (List.getLast?_concat ..)
  rcases List.mem_append.mp hs with hs | hs
  · have := (List.pairwise_append.mp h).2.2 s hs last (List.mem_singleton.mpr rfl)
    omega
  · rwa [List.mem_singleton.mp hs]

theorem length_mul_le : ∀ {times : List Nat} {a : Nat}, Spaced d times →
    (∀ t ∈ times, a ≤ t ∧ t ≤ b) → times.length * d ≤ b - a + d
  | [], _, _, _ => by simp
  | [t], _, _, _ => by simp
  | t :: t' :: times, a, h, hab => by
      obtain ⟨hfirst, hrest⟩ := List.pairwise_cons.mp h
      have ih := length_mul_le (a := t + d) hrest
        (fun s hs => ⟨hfirst s hs, (hab s (List.mem_cons_of_mem _ hs)).2⟩)
      have ha := (hab t (List.mem_cons_self ..)).1
      have ht' := hfirst t' (List.mem_cons_self ..)
      have hb := (hab t' (by simp)).2
      rw [List.length_cons, Nat.succ_mul]
      omega

/-- So many times at a distance of `d` fit between `a` and `b`. -/
theorem length_le (h : Spaced d times) (hd : 0 < d) (hab : ∀ t ∈ times, a ≤ t ∧ t ≤ b) :
    times.length ≤ (b - a) / d + 1 := by
  have hmul := h.length_mul_le hab
  rw [← Nat.add_div_right _ hd, Nat.le_div_iff_mul_le hd]
  exact hmul

theorem filter_length_le (h : Spaced d times) (hd : 0 < d) (a b : Nat) :
    (times.filter fun t => a ≤ t ∧ t ≤ b).length ≤ (b - a) / d + 1 := by
  refine length_le (h.sublist List.filter_sublist) hd ?_
  intro t ht
  exact of_decide_eq_true (List.mem_filter.mp ht).2

end Spaced

namespace Throttle

variable {ι β : Type} {t : Throttle ι β} {r : Request β} {x : β}
  {es : List (Request β × Option β)} {e : Request β × Option β}

/-! ## Logs -/

def Request.isReset : Request β → Bool
  | .reset => true
  | _ => false

/-- When a value passed, if one did. -/
def passTime? : Request β × Option β → Option Nat
  | (.emit _ now, some _) => some now
  | _ => none

/-- The times at which values passed, in the order of the requests. -/
def passTimes (es : List (Request β × Option β)) : List Nat := es.filterMap passTime?

/-- The values that passed, in order. -/
def passed (es : List (Request β × Option β)) : List β := es.filterMap Prod.snd

def sinceReset (es : List (Request β × Option β)) : List (Request β × Option β) :=
  es.rtakeWhile fun e => !e.1.isReset

/-- When the last value passed, if one did since the last reset. -/
def lastPass? (es : List (Request β × Option β)) : Option Nat :=
  (passTimes (sinceReset es)).getLast?

theorem isReset_eq_false (h : r ≠ .reset) : r.isReset = false := by
  cases r with
  | reset => exact absurd rfl h
  | _ => rfl

theorem passTimes_none (es : List (Request β × Option β)) (r : Request β) :
    passTimes (es ++ [(r, none)]) = passTimes es := by
  cases r <;> simp [passTimes, passTime?]

theorem passTimes_pass (es : List (Request β × Option β)) (x y : β) (now : Nat) :
    passTimes (es ++ [(.emit x now, some y)]) = passTimes es ++ [now] := by
  simp [passTimes, passTime?]

theorem passed_none (es : List (Request β × Option β)) (r : Request β) :
    passed (es ++ [(r, none)]) = passed es := by
  simp [passed]

theorem sinceReset_reset (es : List (Request β × Option β)) (answer : Option β) :
    sinceReset (es ++ [(.reset, answer)]) = [] :=
  List.rtakeWhile_concat_neg _ _ _ Bool.false_ne_true

theorem sinceReset_concat (h : e.1 ≠ .reset) : sinceReset (es ++ [e]) = sinceReset es ++ [e] :=
  List.rtakeWhile_concat_pos _ _ _ (by rw [isReset_eq_false h]; rfl)

theorem passTimes_sinceReset_none (h : r ≠ .reset) :
    passTimes (sinceReset (es ++ [(r, none)])) = passTimes (sinceReset es) := by
  rw [sinceReset_concat h, passTimes_none]

/-- A stretch of a log without a reset lies after the last one before its end. -/
theorem suffix_sinceReset {seg : List (Request β × Option β)} (h : ∀ e ∈ seg, e.1 ≠ .reset)
    (es : List (Request β × Option β)) : seg <:+ sinceReset (es ++ seg) := by
  have hall : ∀ e ∈ seg.reverse, (!e.1.isReset) = true := by
    intro e he
    rw [isReset_eq_false (h e (List.mem_reverse.mp he))]
    rfl
  rw [sinceReset, List.rtakeWhile, List.reverse_append, List.takeWhile_append_of_pos hall,
    List.reverse_append, List.reverse_reverse]
  exact List.suffix_append ..

/-! ## Single requests -/

theorem emit_of_open {now : Nat} (h : t.isOpen now = true) (x : β) :
    t.emit x now = ⟨{ t with lastTime := some now, lastValue := some x },
      Call.deliver t.listener x, some x⟩ := if_pos h

theorem emit_of_shut {now : Nat} (h : t.isOpen now = false) (x : β) :
    t.emit x now = .quiet t none := if_neg (by rw [h]; exact Bool.false_ne_true)

theorem isOpen_of_disposed (h : t.disposed = true) (now : Nat) : t.isOpen now = false := by
  rw [isOpen, h]
  rfl

theorem live_of_isOpen {now : Nat} (h : t.isOpen now = true) : t.disposed = false := by
  rw [← Bool.not_eq_true]
  intro hd
  rw [isOpen_of_disposed hd] at h
  cases h

theorem isOpen_of_live (h : t.disposed = false) {now : Nat} :
    t.isOpen now = true ↔ ∀ last, t.lastTime = some last → t.interval ≤ now - last := by
  rw [isOpen, h]
  cases t.lastTime with
  | none => simp
  | some last => simp only [Bool.not_false, Bool.true_and, Option.all_some, decide_eq_true_eq,
      Option.some.injEq, forall_eq']

/-- A live throttle is shut only while the interval since its last time goes on. -/
theorem lastTime_of_shut (hlive : t.disposed = false) {now : Nat} (hshut : t.isOpen now = false) :
    ∃ last, t.lastTime = some last ∧ now < last + t.interval := by
  rw [← Bool.not_eq_true, isOpen_of_live hlive] at hshut
  push Not at hshut
  obtain ⟨last, hlast, hlt⟩ := hshut
  exact ⟨last, hlast, by omega⟩

theorem apply_result_eq_some :
    (t.apply r).result = some x ↔ ∃ now, r = .emit x now ∧ t.isOpen now = true := by
  cases r with
  | emit y now =>
      cases h : t.isOpen now with
      | true =>
          rw [apply, emit_of_open h]
          constructor
          · intro hx
            obtain rfl := Option.some.inj hx
            exact ⟨now, rfl, h⟩
          · rintro ⟨now', heq, -⟩
            cases heq
            rfl
      | false => simp [apply, emit_of_shut h, h]
  | reset => simp [apply]
  | dispose => simp [apply]

/-- The listener is told of what is answered. -/
theorem apply_calls (t : Throttle ι β) (r : Request β) :
    Call.ForEach t.listener (t.apply r).result.toList (t.apply r).events := by
  cases r with
  | emit x now =>
      cases h : t.isOpen now with
      | true =>
          rw [apply, emit_of_open h]
          exact Call.forEach_deliver t.listener x
      | false =>
          rw [apply, emit_of_shut h]
          exact Call.forEach_nil t.listener
  | reset => exact Call.forEach_nil t.listener
  | dispose => exact Call.forEach_nil t.listener

/-! ## The state and the log -/

/-- What the state of a throttle has to do with its log. -/
structure Follows (interval : Nat) (listener : Option ι) (es : List (Request β × Option β))
    (t : Throttle ι β) : Prop where
  interval_eq : t.interval = interval
  listener_eq : t.listener = listener
  disposed_iff : t.disposed = true ↔ .dispose ∈ es.map Prod.fst
  lastValue_eq : t.lastValue = (passed es).getLast?
  lastTime_eq : t.disposed = false → t.lastTime = lastPass? es
  spaced : 0 < interval → Spaced interval (passTimes (sinceReset es))

section

variable {interval : Nat} {listener : Option ι}

theorem Follows.create (interval : Nat) (listener : Option ι) :
    Follows interval listener [] ({ interval, listener } : Throttle ι β) :=
  ⟨rfl, rfl, by simp, rfl, fun _ => rfl, fun _ => List.Pairwise.nil⟩

theorem Follows.live_of_not_mem (h : Follows interval listener es t)
    (hes : .dispose ∉ es.map Prod.fst) : t.disposed = false := by
  rw [← Bool.not_eq_true, h.disposed_iff]
  exact hes

theorem Follows.lastPass?_of_shut (h : Follows interval listener es t) (hlive : t.disposed = false)
    {now : Nat} (hshut : t.isOpen now = false) :
    ∃ last, lastPass? es = some last ∧ now < last + interval := by
  obtain ⟨last, hlast, hlt⟩ := lastTime_of_shut hlive hshut
  rw [h.interval_eq] at hlt
  exact ⟨last, (h.lastTime_eq hlive).symm.trans hlast, hlt⟩

theorem Follows.calls (h : Follows interval listener es t) (r : Request β) :
    Call.ForEach listener (t.apply r).result.toList (t.apply r).events := by
  rw [← h.listener_eq]
  exact t.apply_calls r

theorem Follows.pass (h : Follows interval listener es t) {now : Nat}
    (hopen : t.isOpen now = true) (x : β) :
    Follows interval listener (es ++ [(.emit x now, some x)])
      { t with lastTime := some now, lastValue := some x } := by
  have hlive := live_of_isOpen hopen
  have hsince : sinceReset (es ++ [(.emit x now, some x)])
      = sinceReset es ++ [(.emit x now, some x)] := sinceReset_concat (by simp)
  refine ⟨h.interval_eq, h.listener_eq, ?_, ?_, fun _ => ?_, fun hpos => ?_⟩
  · simp [h.disposed_iff]
  · simp [passed]
  · rw [lastPass?, hsince, passTimes_pass, List.getLast?_concat]
  · rw [hsince, passTimes_pass]
    refine (h.spaced hpos).concat ?_
    intro last hlast
    have hinterval := (isOpen_of_live hlive).mp hopen last ((h.lastTime_eq hlive).trans hlast)
    rw [h.interval_eq] at hinterval
    omega

theorem Follows.step (h : Follows interval listener es t) (r : Request β) :
    Follows interval listener (es ++ [(r, (t.apply r).result)]) (t.apply r).state := by
  cases r with
  | emit x now =>
      cases hopen : t.isOpen now with
      | true =>
          rw [apply, emit_of_open hopen]
          exact h.pass hopen x
      | false =>
          rw [apply, emit_of_shut hopen]
          have hr : Request.emit x now ≠ .reset := by simp
          refine ⟨h.interval_eq, h.listener_eq, ?_, ?_, fun hlive => ?_, fun hpos => ?_⟩
          · simp [h.disposed_iff]
          · rw [Step.quiet_state, Step.quiet_result, passed_none, h.lastValue_eq]
          · rw [lastPass?, Step.quiet_result, passTimes_sinceReset_none hr]
            exact h.lastTime_eq hlive
          · rw [Step.quiet_result, passTimes_sinceReset_none hr]
            exact h.spaced hpos
  | reset =>
      refine ⟨h.interval_eq, h.listener_eq, ?_, ?_, fun _ => ?_, fun _ => ?_⟩
      · simp [apply, reset, h.disposed_iff]
      · exact h.lastValue_eq.trans (congrArg _ (passed_none es .reset).symm)
      · rw [lastPass?, sinceReset_reset]
        rfl
      · rw [sinceReset_reset]
        exact List.Pairwise.nil
  | dispose =>
      have hr : (Request.dispose : Request β) ≠ .reset := by simp
      refine ⟨h.interval_eq, h.listener_eq, ?_, ?_, fun hlive => ?_, fun hpos => ?_⟩
      · simp [apply, dispose]
      · exact h.lastValue_eq.trans (congrArg _ (passed_none es .dispose).symm)
      · cases hlive
      · rw [apply, Step.quiet_result, passTimes_sinceReset_none hr]
        exact h.spaced hpos

theorem Follows.run (interval : Nat) (listener : Option ι) (rs : List (Request β)) :
    Follows interval listener (Step.log apply { interval, listener } rs)
      (Step.run apply { interval, listener } rs).state := by
  -- From the end, where the log grows.
  induction rs using List.reverseRecOn with
  | nil => exact Follows.create interval listener
  | append_singleton rs r ih =>
      rw [Step.log_append, Step.run_append_state]
      exact ih.step r

end

/-! ## Runs -/

/-- What a run of requests to a new throttle comes to; `es` is its log. -/
structure LimitsRate (interval : Nat) (listener : Option ι) (rs : List (Request β))
    (es : List (Request β × Option β)) (t : Step (Throttle ι β) (Call ι β) (List (Option β))) :
    Prop where
  /-- Exactly the values that are emitted while the throttle is open pass. -/
  answer : ∀ k r, rs[k]? = some r → ∀ x, t.result[k]? = some (some x)
    ↔ ∃ now, r = .emit x now
      ∧ (Step.run apply ({ interval, listener } : Throttle ι β) (rs.take k)).state.isOpen now = true
  /-- The listener is told of each value that passes, once, and of nothing else: in the whole run,
  in this order, and in any request that may follow. -/
  told : Call.ForEach listener (passed es) t.events
  next_told : ∀ r, Call.ForEach listener (t.state.apply r).result.toList (t.state.apply r).events
  last : t.state.lastValue = (passed es).getLast?
  disposed : ∀ (j k : Nat) x, j < k → rs[j]? = some .dispose → t.result[k]? ≠ some (some x)
  /-- Between two resets the times at which values pass keep the interval, -/
  spaced : 0 < interval → ∀ seg, seg <:+: es → (∀ e ∈ seg, e.1 ≠ .reset) →
    Spaced interval (passTimes seg)
  /-- so only so many of them lie between two points in time. -/
  rate : 0 < interval → ∀ seg, seg <:+: es → (∀ e ∈ seg, e.1 ≠ .reset) → ∀ a b, a ≤ b →
    ((passTimes seg).filter fun now => a ≤ now ∧ now ≤ b).length ≤ (b - a) / interval + 1
  /-- No value is dropped without need. -/
  needed : ∀ (k : Nat) x now, es[k]? = some (.emit x now, none) → Request.dispose ∉ rs.take k →
    ∃ last, lastPass? (es.take k) = some last ∧ now < last + interval

section

variable (interval : Nat) (listener : Option ι) (rs : List (Request β))

theorem passed_log (t : Throttle ι β) (rs : List (Request β)) :
    passed (Step.log apply t rs) = (Step.run apply t rs).result.filterMap id := by
  rw [← Step.map_snd_log apply t rs, List.filterMap_map]
  rfl

theorem run_calls : Call.ForEach listener
    (passed (Step.log apply ({ interval, listener } : Throttle ι β) rs))
    (Step.run apply ({ interval, listener } : Throttle ι β) rs).events := by
  rw [passed_log, List.filterMap_eq_flatMap_toList]
  refine Step.run_forEach (fun t => ∃ es, Follows interval listener es t) ?_
    ⟨[], Follows.create interval listener⟩ rs
  rintro t r ⟨es, ht⟩
  exact ⟨ht.calls r, _, ht.step r⟩

theorem spaced_of_infix (hpos : 0 < interval) {seg : List (Request β × Option β)}
    (hseg : seg <:+: Step.log apply ({ interval, listener } : Throttle ι β) rs)
    (hreset : ∀ e ∈ seg, e.1 ≠ .reset) : Spaced interval (passTimes seg) := by
  obtain ⟨before, after, hes⟩ := hseg
  obtain ⟨k, hk⟩ := Step.log_of_isPrefix ⟨after, hes⟩
  have hspaced := (Follows.run interval listener (rs.take k)).spaced hpos
  rw [← hk] at hspaced
  exact hspaced.sublist ((suffix_sinceReset hreset before).sublist.filterMap _)

/-- Whatever a new throttle is asked, and whatever the clock says meanwhile: values pass at the
rate that the interval allows, and at no lower one. -/
theorem limits_rate : LimitsRate interval listener rs
    (Step.log apply ({ interval, listener } : Throttle ι β) rs)
    (Step.run apply { interval, listener } rs) := by
  have hanswer : ∀ k r, rs[k]? = some r → ∀ x,
      (Step.run apply ({ interval, listener } : Throttle ι β) rs).result[k]? = some (some x)
        ↔ ∃ now, r = .emit x now
          ∧ (Step.run apply ({ interval, listener } : Throttle ι β) (rs.take k)).state.isOpen now
            = true := by
    intro k r hk x
    rw [Step.run_result_getElem? _ _ hk, Option.some_inj]
    exact apply_result_eq_some
  have hspaced := spaced_of_infix interval listener rs
  refine ⟨hanswer, run_calls .., (Follows.run interval listener rs).calls,
    (Follows.run interval listener rs).lastValue_eq, ?_,
    fun hpos seg hseg hreset => hspaced hpos hseg hreset, ?_, ?_⟩
  · intro j k x hjk hj hk
    obtain ⟨hlt, -⟩ := List.getElem?_eq_some_iff.mp hk
    rw [Step.length_run_result] at hlt
    obtain ⟨now, -, hopen⟩ := (hanswer k _ (List.getElem?_eq_getElem hlt) x).mp hk
    have hmem : Request.dispose ∈ rs.take k :=
      List.mem_of_getElem? ((List.getElem?_take_of_lt hjk).trans hj)
    have hdisposed := (Follows.run interval listener (rs.take k)).disposed_iff
    rw [Step.map_fst_log] at hdisposed
    rw [isOpen_of_disposed (hdisposed.mpr hmem)] at hopen
    cases hopen
  · intro hpos seg hseg hreset a b _
    exact (hspaced hpos hseg hreset).filter_length_le hpos a b
  · intro k x now hk hlive
    obtain ⟨-, hnone⟩ := Step.of_log_getElem? hk
    have hfollows := Follows.run interval listener (rs.take k)
    rw [Step.take_log]
    refine hfollows.lastPass?_of_shut (hfollows.live_of_not_mem ?_) ?_
    · rwa [Step.map_fst_log]
    · rw [← Bool.not_eq_true]
      intro hopen
      rw [apply_result_eq_some.mpr ⟨now, rfl, hopen⟩] at hnone
      cases hnone

end

end Throttle

end Windowing
