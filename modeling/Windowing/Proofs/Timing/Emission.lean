import Windowing.Proofs.Timing.Debouncer

/-!
# What a debouncer lets settle

Everything a debouncer does can be read off its log, the requests so far with their answers.
`Waits` says which value waits: that of the last `notify`, unless something took its place
(`Supersedes`), and a value that settles gives up its place as well. `Follows` is what the
state of a debouncer has to do with its log, `Follows.step` says that every request keeps it,
and `emits_waiting` reads the result off: what settles, when, how often, and who is told. A
deadline without a value would settle into nothing, so that there is none is part of both.
-/

namespace Windowing

namespace Debouncer

variable {ι β : Type} {d : Debouncer ι β} {r : Request β} {x : β}

/-! ## Logs -/

/-- The last value brought along before the debouncer was disposed of. -/
def lastValue? (rs : List (Request β)) : Option β :=
  ((rs.takeWhile fun r => !r.isDispose).filterMap Request.value?).getLast?

/-- A request that takes the place of the value that waits, or lets it settle. -/
inductive Supersedes : Request β × Option β → Prop where
  | notify (x : β) (now : Nat) (answer : Option β) : Supersedes (.notify x now, answer)
  | sync (x : β) (answer : Option β) : Supersedes (.sync x, answer)
  | cancel (answer : Option β) : Supersedes (.cancel, answer)
  | settled (r : Request β) (x : β) : Supersedes (r, some x)

section

variable {now : Nat} {answer : Option β}

@[simp] theorem supersedes_notify : Supersedes (.notify x now, answer) := .notify ..

@[simp] theorem supersedes_sync : Supersedes (.sync x, answer) := .sync ..

@[simp] theorem supersedes_cancel : Supersedes (.cancel, answer) := .cancel ..

@[simp] theorem supersedes_poll : Supersedes (.poll now, answer) ↔ answer.isSome = true := by
  cases answer with
  | none => exact iff_of_false (fun h => by cases h) Bool.false_ne_true
  | some x => exact iff_of_true (.settled ..) rfl

@[simp] theorem supersedes_flush : Supersedes (.flush, answer) ↔ answer.isSome = true := by
  cases answer with
  | none => exact iff_of_false (fun h => by cases h) Bool.false_ne_true
  | some x => exact iff_of_true (.settled ..) rfl

end

/-- Request `i` brought the value `x` at the given time, and since then nothing superseded it. -/
def Waits (es : List (Request β × Option β)) (i : Nat) (x : β) (time : Nat) : Prop :=
  es[i]? = some (.notify x time, none) ∧ ∀ j e, i < j → es[j]? = some e → ¬ Supersedes e

/-- Request `k` let the value settle that request `i` brought. -/
def Settles (es : List (Request β × Option β)) (i k : Nat) : Prop :=
  ∃ x time r, Waits (es.take k) i x time ∧ es[k]? = some (r, some x)

theorem getElem?_concat_eq_some {α : Type} {l : List α} {a b : α} {i : Nat} :
    (l ++ [a])[i]? = some b ↔ l[i]? = some b ∨ (i = l.length ∧ a = b) := by
  rcases Nat.lt_trichotomy i l.length with h | rfl | h
  · rw [List.getElem?_append_left h]
    simp [h.ne]
  · simp
  · simp [List.getElem?_eq_none (Nat.le_of_lt h), h.ne', h]

theorem waits_concat {es : List (Request β × Option β)} {e : Request β × Option β} {i time : Nat} :
    Waits (es ++ [e]) i x time
      ↔ (i = es.length ∧ e = (.notify x time, none)) ∨ (Waits es i x time ∧ ¬ Supersedes e) := by
  constructor
  · rintro ⟨hi, hafter⟩
    rcases getElem?_concat_eq_some.mp hi with hi | ⟨rfl, rfl⟩
    · obtain ⟨hlt, -⟩ := List.getElem?_eq_some_iff.mp hi
      refine Or.inr ⟨⟨hi, fun j e' hij hj => ?_⟩, ?_⟩
      · exact hafter j e' hij (getElem?_concat_eq_some.mpr (Or.inl hj))
      · exact hafter _ e hlt (getElem?_concat_eq_some.mpr (Or.inr ⟨rfl, rfl⟩))
    · exact Or.inl ⟨rfl, rfl⟩
  · rintro (⟨rfl, rfl⟩ | ⟨⟨hi, hafter⟩, he⟩)
    · refine ⟨getElem?_concat_eq_some.mpr (Or.inr ⟨rfl, rfl⟩), fun j e hj hget => ?_⟩
      obtain ⟨hlt, -⟩ := List.getElem?_eq_some_iff.mp hget
      simp only [List.length_append, List.length_singleton] at hlt
      omega
    · refine ⟨getElem?_concat_eq_some.mpr (Or.inl hi), fun j e' hij hj => ?_⟩
      rcases getElem?_concat_eq_some.mp hj with hj | ⟨-, rfl⟩
      · exact hafter j e' hij hj
      · exact he

/-- Only one value waits. -/
theorem Waits.unique {es : List (Request β × Option β)} {i j time time' : Nat} {y : β}
    (h : Waits es i x time) (h' : Waits es j y time') : i = j := by
  rcases Nat.lt_trichotomy i j with hij | hij | hij
  · exact absurd (.notify ..) (h.2 j _ hij h'.1)
  · exact hij
  · exact absurd (.notify ..) (h'.2 i _ hij h.1)

theorem Settles.source_unique {es : List (Request β × Option β)} {i j k : Nat}
    (h : Settles es i k) (h' : Settles es j k) : i = j := by
  obtain ⟨x, time, r, hwaits, -⟩ := h
  obtain ⟨y, time', r', hwaits', -⟩ := h'
  exact hwaits.unique hwaits'

theorem Settles.not_superseded {es : List (Request β × Option β)} {i j k : Nat}
    {e : Request β × Option β} (h : Settles es i k) (hij : i < j) (hjk : j < k)
    (hj : es[j]? = some e) : ¬ Supersedes e := by
  obtain ⟨x, time, r, ⟨-, hafter⟩, -⟩ := h
  rw [← List.getElem?_take_of_lt hjk] at hj
  exact hafter j e hij hj

/-- A value that settled does not wait any more, so it does not settle again. -/
theorem Settles.not_again {es : List (Request β × Option β)} {i k k' : Nat}
    (h : Settles es i k) (h' : Settles es i k') : ¬ k < k' := by
  intro hlt
  obtain ⟨x, time, r, ⟨hi, -⟩, hk⟩ := h
  obtain ⟨hi, -⟩ := List.getElem?_eq_some_iff.mp hi
  rw [List.length_take] at hi
  exact h'.not_superseded (by omega) hlt hk (.settled r x)

theorem Settles.unique {es : List (Request β × Option β)} {i k k' : Nat}
    (h : Settles es i k) (h' : Settles es i k') : k = k' :=
  Nat.le_antisymm (Nat.not_lt.mp (h'.not_again h)) (Nat.not_lt.mp (h.not_again h'))

/-! ## The state and the log -/

theorem lastValue?_concat_of_live {rs : List (Request β)} (h : .dispose ∉ rs) (r : Request β) :
    lastValue? (rs ++ [r]) = r.value?.or (lastValue? rs) := by
  have hall : ∀ r ∈ rs, (!r.isDispose) = true := by
    intro r hr
    cases r with
    | dispose => exact absurd hr h
    | _ => rfl
  unfold lastValue?
  rw [List.takeWhile_append_of_pos hall, List.takeWhile_eq_self_iff.mpr hall, List.filterMap_append,
    List.getLast?_append]
  cases r <;> rfl

theorem lastValue?_concat_of_disposed {rs : List (Request β)} (h : .dispose ∈ rs)
    (r : Request β) : lastValue? (rs ++ [r]) = lastValue? rs := by
  have hlength : ¬ (rs.takeWhile fun r => !r.isDispose).length = rs.length := by
    intro hlength
    have hself : rs.takeWhile (fun r => !r.isDispose) = rs :=
      (List.takeWhile_prefix _).eq_of_length hlength
    have hall := List.takeWhile_eq_self_iff.mp hself _ h
    cases hall
  unfold lastValue?
  rw [List.takeWhile_append, if_neg hlength]

/-- What the state of a debouncer has to do with the requests it was given, and its log. -/
structure Follows (delay : Nat) (listener : Option ι) (rs : List (Request β))
    (es : List (Request β × Option β)) (d : Debouncer ι β) : Prop where
  delay_eq : d.delay = delay
  listener_eq : d.listener = listener
  disposed_iff : d.disposed = true ↔ .dispose ∈ rs
  latest_eq : d.latest = lastValue? rs
  sound : d.Sound
  waiting_iff : ∀ x due, d.waiting = some (x, due)
    ↔ .dispose ∉ rs ∧ ∃ i time, Waits es i x time ∧ due = min (time + delay) Count.limit

section

variable {delay : Nat} {listener : Option ι} {rs : List (Request β)}
  {es : List (Request β × Option β)}

/-- The log says of a live debouncer what waits after one more request. -/
theorem Follows.waitingAfter_iff (h : Follows delay listener rs es d) (hrs : .dispose ∉ rs)
    (hr : r ≠ .dispose) (due : Nat) :
    d.waitingAfter r (d.apply r).result = some (x, due)
      ↔ ∃ i time, Waits (es ++ [(r, (d.apply r).result)]) i x time
        ∧ due = min (time + delay) Count.limit := by
  have hwaits := h.waiting_iff x due
  simp only [hrs, not_false_eq_true, true_and] at hwaits
  cases r with
  | dispose => exact absurd rfl hr
  | notify y now =>
      have hanswer : (d.apply (.notify y now)).result = none := rfl
      simp only [waits_concat, supersedes_notify, not_true_eq_false, and_false, or_false, hanswer,
        waitingAfter, Option.some.injEq, Prod.mk.injEq, Request.notify.injEq, and_true, h.delay_eq,
        Count.add]
      constructor
      · rintro ⟨rfl, rfl⟩
        exact ⟨_, now, ⟨rfl, rfl, rfl⟩, rfl⟩
      · rintro ⟨i, time, ⟨-, rfl, rfl⟩, rfl⟩
        exact ⟨rfl, rfl⟩
  | sync y => simp [waits_concat, waitingAfter]
  | cancel => simp [waits_concat, waitingAfter]
  | poll now =>
      cases (d.apply (.poll now)).result <;> simp [waits_concat, waitingAfter, hwaits]
  | flush => cases (d.apply .flush).result <;> simp [waits_concat, waitingAfter, hwaits]

theorem Follows.step (h : Follows delay listener rs es d) (r : Request β) :
    Follows delay listener (rs ++ [r]) (es ++ [(r, (d.apply r).result)]) (d.apply r).state := by
  cases hd : d.disposed with
  | true =>
      have hrs := h.disposed_iff.mp hd
      have hnone : d.waiting = none := by
        cases hw : d.waiting with
        | none => rfl
        | some w => exact absurd hrs ((h.waiting_iff w.1 w.2).mp hw).1
      obtain ⟨hdelay, hlistener, hdisposed, hlatest, hwaiting⟩ := apply_of_disposed hd hnone r
      refine ⟨hdelay.trans h.delay_eq, hlistener.trans h.listener_eq, ?_, ?_, h.sound.apply r,
        fun x due => ?_⟩
      · simp [hdisposed, hrs]
      · rw [hlatest, h.latest_eq, lastValue?_concat_of_disposed hrs]
      · simp [hwaiting, hrs]
  | false =>
      have hrs : .dispose ∉ rs := fun hmem => by
        rw [h.disposed_iff.mpr hmem] at hd
        cases hd
      obtain ⟨hdelay, hlistener, hdisposed, hlatest, hwaiting⟩ := apply_of_live hd r
      refine ⟨hdelay.trans h.delay_eq, hlistener.trans h.listener_eq, ?_, ?_, h.sound.apply r,
        fun x due => ?_⟩
      · rw [hdisposed, isDispose_iff, List.mem_append, List.mem_singleton, or_iff_right hrs,
          eq_comm]
      · rw [hlatest, h.latest_eq, lastValue?_concat_of_live hrs]
      · rw [hwaiting]
        by_cases hr : r = .dispose
        · simp [hr, waitingAfter]
        · rw [h.waitingAfter_iff hrs hr]
          simp [hrs, Ne.symm hr]

end

/-! ## Runs -/

/-- The requests, each with the answer that the debouncer gave. -/
def log (d : Debouncer ι β) (rs : List (Request β)) : List (Request β × Option β) :=
  rs.zip (Step.run apply d rs).result

theorem log_append (d : Debouncer ι β) (rs rs' : List (Request β)) :
    d.log (rs ++ rs') = d.log rs ++ (Step.run apply d rs).state.log rs' :=
  Step.log_append ..

theorem take_log (d : Debouncer ι β) (rs : List (Request β)) (k : Nat) :
    (d.log rs).take k = d.log (rs.take k) :=
  Step.take_log ..

variable {delay : Nat} {listener : Option ι}

theorem Follows.create (delay : Nat) (listener : Option ι) :
    Follows delay listener [] [] ({ delay, listener } : Debouncer ι β) := by
  refine ⟨rfl, rfl, by simp, rfl, Sound.of_rest rfl, fun x due => ?_⟩
  simp [waiting, Waits]

theorem Follows.run (delay : Nat) (listener : Option ι) (rs : List (Request β)) :
    Follows delay listener rs (({ delay, listener } : Debouncer ι β).log rs)
      (Step.run apply { delay, listener } rs).state := by
  -- From the end, where the log grows: a request is judged by the ones before it.
  induction rs using List.reverseRecOn with
  | nil => exact Follows.create delay listener
  | append_singleton rs r ih =>
      have hstep := ih.step r
      rw [log_append, Step.run_append_state]
      exact hstep

theorem Follows.calls {rs : List (Request β)} {es : List (Request β × Option β)}
    (h : Follows delay listener rs es d) (r : Request β) :
    Call.ForEach listener (d.apply r).result.toList (d.apply r).events := by
  rw [← h.listener_eq]
  exact d.apply_calls r

/-- A request answers with the value that waits if it reaches the time when that is due. -/
theorem Follows.answer_iff {rs : List (Request β)} {es : List (Request β × Option β)}
    (h : Follows delay listener rs es d) :
    (d.apply r).result = some x ↔ .dispose ∉ rs
      ∧ ∃ i time, Waits es i x time ∧ r.Reaches (min (time + delay) Count.limit) := by
  rw [apply_result_eq_some]
  constructor
  · rintro ⟨-, due, hwaiting, hreaches⟩
    obtain ⟨hrs, i, time, hwaits, rfl⟩ := (h.waiting_iff x due).mp hwaiting
    exact ⟨hrs, i, time, hwaits, hreaches⟩
  · rintro ⟨hrs, i, time, hwaits, hreaches⟩
    refine ⟨?_, _, (h.waiting_iff x _).mpr ⟨hrs, i, time, hwaits, rfl⟩, hreaches⟩
    rw [← Bool.not_eq_true, h.disposed_iff]
    exact hrs

theorem Follows.deadline_iff {rs : List (Request β)} {es : List (Request β × Option β)}
    (h : Follows delay listener rs es d) {due : Nat} :
    d.deadline = some due ↔ .dispose ∉ rs
      ∧ ∃ i x time, Waits es i x time ∧ due = min (time + delay) Count.limit := by
  rw [h.sound.deadline_iff]
  constructor
  · rintro ⟨x, hwaiting⟩
    obtain ⟨hrs, i, time, hwaits, hdue⟩ := (h.waiting_iff x due).mp hwaiting
    exact ⟨hrs, i, x, time, hwaits, hdue⟩
  · rintro ⟨hrs, i, x, time, hwaits, hdue⟩
    exact ⟨x, (h.waiting_iff x due).mpr ⟨hrs, i, time, hwaits, hdue⟩⟩

/-- What a run of requests to a new debouncer comes to; `es` is its log. -/
structure EmitsWaiting (delay : Nat) (listener : Option ι) (rs : List (Request β))
    (es : List (Request β × Option β)) (t : Step (Debouncer ι β) (Call ι β) (List (Option β))) :
    Prop where
  /-- A value settles if it waits and the request reaches the time when it is due. -/
  answer : ∀ k r, rs[k]? = some r → ∀ x, t.result[k]? = some (some x)
    ↔ .dispose ∉ rs.take k ∧ ∃ i time, Waits (es.take k) i x time
      ∧ r.Reaches (min (time + delay) Count.limit)
  /-- Whatever settles was brought by one `notify`. -/
  source : ∀ k x, t.result[k]? = some (some x) → ∃! i, Settles es i k
  once : ∀ i k k', Settles es i k → Settles es i k' → k = k'
  superseded : ∀ i j k e, i < j → j < k → es[j]? = some e → Supersedes e → ¬ Settles es i k
  /-- The listener is told of each value that settles, once, and of nothing else: in the whole
  run, and in any request that may follow. -/
  told : Call.ForEach listener (t.result.filterMap id) t.events
  next_told : ∀ r, Call.ForEach listener (t.state.apply r).result.toList (t.state.apply r).events
  deadline : ∀ due, t.state.deadline = some due
    ↔ .dispose ∉ rs ∧ ∃ i x time, Waits es i x time ∧ due = min (time + delay) Count.limit
  poll_deadline : ∀ due, t.state.deadline = some due → (t.state.poll due).result.isSome = true
  latest : t.state.latest = lastValue? rs
  /-- A deadline comes with a value, so what is let settle is there to be given. -/
  sound : t.state.Sound
  settle_isSome : t.state.isPending = true → t.state.settle.result.isSome = true

/-- Whatever a new debouncer is asked, at whatever times and in whatever order: it emits the value
that waits when that is due or flushed, once, and nothing else. -/
theorem emits_waiting (delay : Nat) (listener : Option ι) (rs : List (Request β)) :
    EmitsWaiting delay listener rs (({ delay, listener } : Debouncer ι β).log rs)
      (Step.run apply { delay, listener } rs) := by
  have hrun := Follows.run (β := β) delay listener
  have hanswer : ∀ k r, rs[k]? = some r → ∀ x,
      (Step.run apply ({ delay, listener } : Debouncer ι β) rs).result[k]? = some (some x)
        ↔ .dispose ∉ rs.take k ∧ ∃ i time,
          Waits ((({ delay, listener } : Debouncer ι β).log rs).take k) i x time
          ∧ r.Reaches (min (time + delay) Count.limit) := by
    intro k r hk x
    rw [Step.run_result_getElem? _ _ hk, Option.some_inj, take_log]
    exact (hrun (rs.take k)).answer_iff
  refine ⟨hanswer, fun k x hx => ?_, fun i k k' => Settles.unique,
    fun i j k e hij hjk hj he hsettles => hsettles.not_superseded hij hjk hj he, ?_,
    (hrun rs).calls, fun due => (hrun rs).deadline_iff, fun due hdue => ?_, (hrun rs).latest_eq,
    (hrun rs).sound, (hrun rs).sound.settle_isSome⟩
  · have hlt : k < rs.length := by
      obtain ⟨hlt, -⟩ := List.getElem?_eq_some_iff.mp hx
      rwa [Step.length_run_result] at hlt
    have hk := List.getElem?_eq_getElem hlt
    obtain ⟨-, i, time, hwaits, -⟩ := (hanswer k _ hk x).mp hx
    have hlog : (({ delay, listener } : Debouncer ι β).log rs)[k]? = some (rs[k], some x) :=
      List.getElem?_zip_eq_some.mpr ⟨hk, hx⟩
    exact ⟨i, ⟨x, time, _, hwaits, hlog⟩, fun j hj => hj.source_unique ⟨x, time, _, hwaits, hlog⟩⟩
  · rw [List.filterMap_eq_flatMap_toList]
    refine Step.run_forEach (fun d => ∃ rs es, Follows delay listener rs es d) ?_
      ⟨[], [], Follows.create delay listener⟩ rs
    rintro d r ⟨rs, es, hd⟩
    exact ⟨hd.calls r, _, _, hd.step r⟩
  · obtain ⟨hrs, i, x, time, hwaits, rfl⟩ := (hrun rs).deadline_iff.mp hdue
    have hpoll := (hrun rs).answer_iff (r := .poll _).mpr ⟨hrs, i, time, hwaits, Nat.le_refl _⟩
    exact Option.isSome_of_eq_some hpoll

end Debouncer

end Windowing
