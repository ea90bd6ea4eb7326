/-!
# Steps

Every stateful part of the library is a value, and an operation on it is a function to a
`Step`: the state afterwards, what happened on the way, and the answer. Listeners are
names of the caller's choosing; that a listener was called, and with what, is recorded
as an event, in the order of the calls. `Step.run` performs a list of inputs one after
the other.
-/

namespace Windowing

/-- One call of a listener. -/
structure Call (ι α : Type) where
  listener : ι
  argument : α

/-- The calls made when `argument` is delivered: one if a listener is installed. -/
def Call.deliver {ι α : Type} (listener : Option ι) (argument : α) : List (Call ι α) :=
  match listener with
  | none => []
  | some name => [⟨name, argument⟩]

/-- What an operation leaves behind. Events are in the order in which they happened. -/
structure Step (σ ε ρ : Type) where
  state : σ
  events : List ε
  result : ρ

namespace Step

variable {σ τ ε ρ ρ' ι : Type}

/-- An operation during which nothing happened. -/
def quiet (s : σ) (r : ρ) : Step σ ε ρ := ⟨s, [], r⟩

/-- Goes on from the state that a step left. -/
def andThen (t : Step σ ε ρ) (next : σ → ρ → Step σ ε ρ') : Step σ ε ρ' :=
  let u := next t.state t.result
  ⟨u.state, t.events ++ u.events, u.result⟩

def map (f : ρ → ρ') (t : Step σ ε ρ) : Step σ ε ρ' := ⟨t.state, t.events, f t.result⟩

/-- A step of a part, seen as a step of the whole that contains it. -/
def within (put : σ → τ) (t : Step σ ε ρ) : Step τ ε ρ := ⟨put t.state, t.events, t.result⟩

/-! ## What the parts of a step are -/

@[simp] theorem quiet_state (s : σ) (r : ρ) : (quiet s r : Step σ ε ρ).state = s := rfl

@[simp] theorem quiet_events (s : σ) (r : ρ) : (quiet s r : Step σ ε ρ).events = [] := rfl

@[simp] theorem quiet_result (s : σ) (r : ρ) : (quiet s r : Step σ ε ρ).result = r := rfl

@[simp] theorem andThen_state (t : Step σ ε ρ) (next : σ → ρ → Step σ ε ρ') :
    (t.andThen next).state = (next t.state t.result).state := rfl

@[simp] theorem andThen_events (t : Step σ ε ρ) (next : σ → ρ → Step σ ε ρ') :
    (t.andThen next).events = t.events ++ (next t.state t.result).events := rfl

@[simp] theorem andThen_result (t : Step σ ε ρ) (next : σ → ρ → Step σ ε ρ') :
    (t.andThen next).result = (next t.state t.result).result := rfl

@[simp] theorem map_state (f : ρ → ρ') (t : Step σ ε ρ) : (t.map f).state = t.state := rfl

@[simp] theorem map_events (f : ρ → ρ') (t : Step σ ε ρ) : (t.map f).events = t.events := rfl

@[simp] theorem map_result (f : ρ → ρ') (t : Step σ ε ρ) : (t.map f).result = f t.result := rfl

@[simp] theorem within_state (put : σ → τ) (t : Step σ ε ρ) :
    (t.within put).state = put t.state := rfl

@[simp] theorem within_events (put : σ → τ) (t : Step σ ε ρ) :
    (t.within put).events = t.events := rfl

@[simp] theorem within_result (put : σ → τ) (t : Step σ ε ρ) :
    (t.within put).result = t.result := rfl

/-! ## Runs -/

/-- Performs the inputs in order and collects the answers. -/
def run (act : σ → ι → Step σ ε ρ) : σ → List ι → Step σ ε (List ρ)
  | s, [] => quiet s []
  | s, i :: is => (act s i).andThen fun s r => (run act s is).map (r :: ·)

theorem length_run_result (act : σ → ι → Step σ ε ρ) (s : σ) (is : List ι) :
    (run act s is).result.length = is.length := by
  induction is generalizing s with
  | nil => rfl
  | cons i is ih => simp [run, ih]

theorem run_append_state (act : σ → ι → Step σ ε ρ) (s : σ) (is js : List ι) :
    (run act s (is ++ js)).state = (run act (run act s is).state js).state := by
  induction is generalizing s with
  | nil => rfl
  | cons i is ih => simp [run, ih]

theorem run_append_events (act : σ → ι → Step σ ε ρ) (s : σ) (is js : List ι) :
    (run act s (is ++ js)).events
      = (run act s is).events ++ (run act (run act s is).state js).events := by
  induction is generalizing s with
  | nil => rfl
  | cons i is ih => simp [run, ih]

theorem run_append_result (act : σ → ι → Step σ ε ρ) (s : σ) (is js : List ι) :
    (run act s (is ++ js)).result
      = (run act s is).result ++ (run act (run act s is).state js).result := by
  induction is generalizing s with
  | nil => rfl
  | cons i is ih => simp [run, ih]

theorem run_result_getElem? (act : σ → ι → Step σ ε ρ) (s : σ) {is : List ι} {k : Nat} {i : ι}
    (h : is[k]? = some i) :
    (run act s is).result[k]? = some (act (run act s (is.take k)).state i).result := by
  induction is generalizing s k with
  | nil => cases h
  | cons j is ih =>
      cases k with
      | zero =>
          cases h
          rfl
      | succ k => exact ih _ h

/-- Where an action goes on alike around a part, so does a run of it. -/
theorem run_within {act : σ → ι → Step σ ε ρ} {put : σ → σ} {is : List ι}
    (h : ∀ s, ∀ i ∈ is, act (put s) i = (act s i).within put) (s : σ) :
    run act (put s) is = (run act s is).within put := by
  induction is generalizing s with
  | nil => rfl
  | cons i is ih =>
      have htail := ih fun s j hj => h s j (List.mem_cons_of_mem _ hj)
      simp only [run, h s i (List.mem_cons_self ..)]
      simp [andThen, within, map, htail]

/-! ## Logs -/

/-- The inputs of a run, each with the answer that it got. -/
def log (act : σ → ι → Step σ ε ρ) (s : σ) (is : List ι) : List (ι × ρ) :=
  is.zip (run act s is).result

theorem map_fst_log (act : σ → ι → Step σ ε ρ) (s : σ) (is : List ι) :
    (log act s is).map Prod.fst = is :=
  List.map_fst_zip (Nat.le_of_eq (length_run_result ..).symm)

theorem map_snd_log (act : σ → ι → Step σ ε ρ) (s : σ) (is : List ι) :
    (log act s is).map Prod.snd = (run act s is).result :=
  List.map_snd_zip (Nat.le_of_eq (length_run_result ..))

theorem log_append (act : σ → ι → Step σ ε ρ) (s : σ) (is js : List ι) :
    log act s (is ++ js) = log act s is ++ log act (run act s is).state js := by
  rw [log, run_append_result, List.zip_append (length_run_result ..).symm]
  rfl

theorem take_log (act : σ → ι → Step σ ε ρ) (s : σ) (is : List ι) (k : Nat) :
    (log act s is).take k = log act s (is.take k) := by
  induction is generalizing s k with
  | nil => simp [log]
  | cons i is ih =>
      cases k with
      | zero => rfl
      | succ k => exact congrArg (_ :: ·) (ih _ k)

theorem log_of_isPrefix {act : σ → ι → Step σ ε ρ} {s : σ} {is : List ι} {es : List (ι × ρ)}
    (h : es <+: log act s is) : ∃ k, es = log act s (is.take k) :=
  ⟨es.length, (List.prefix_iff_eq_take.mp h).trans (take_log ..)⟩

theorem log_getElem? (act : σ → ι → Step σ ε ρ) (s : σ) {is : List ι} {k : Nat} {i : ι}
    (h : is[k]? = some i) :
    (log act s is)[k]? = some (i, (act (run act s (is.take k)).state i).result) :=
  List.getElem?_zip_eq_some.mpr ⟨h, run_result_getElem? act s h⟩

/-- An entry of a log is an input with the answer that the state before it gives. -/
theorem of_log_getElem? {act : σ → ι → Step σ ε ρ} {s : σ} {is : List ι} {k : Nat} {i : ι} {r : ρ}
    (h : (log act s is)[k]? = some (i, r)) :
    is[k]? = some i ∧ r = (act (run act s (is.take k)).state i).result := by
  have hi := (List.getElem?_zip_eq_some.mp h).1
  rw [log_getElem? act s hi] at h
  exact ⟨hi, (Prod.mk.inj (Option.some.inj h)).2.symm⟩

end Step

end Windowing
