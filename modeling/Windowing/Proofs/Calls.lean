import Windowing.Step

/-!
# Which calls were made

That a listener is called once for each of some arguments is said here by the calls
themselves (`Call.ForEach`): what they are if a listener is installed, and that there are none
if not. `Call.deliver`, by which operations call a listener, does one such call
(`Call.forEach_deliver`). If the answer of each step says what its calls were made with, the
answers of a run say what those of the run were made with (`Step.run_forEach`).
-/

namespace Windowing

variable {ι κ α σ ρ : Type} {listener : Option ι}

namespace Call

/-- The listener was called once with each of these arguments, in their order. Where none is
installed, no call was made. -/
structure ForEach (listener : Option ι) (arguments : List α) (calls : List (Call ι α)) :
    Prop where
  installed : ∀ name, listener = some name → calls = arguments.map fun argument => ⟨name, argument⟩
  absent : listener = none → calls = []

theorem forEach_nil (listener : Option ι) : ForEach listener ([] : List α) [] :=
  ⟨fun _ _ => rfl, fun _ => rfl⟩

theorem forEach_deliver (listener : Option ι) (argument : α) :
    ForEach listener [argument] (deliver listener argument) where
  installed := by
    rintro name rfl
    rfl
  absent := by
    rintro rfl
    rfl

theorem ForEach.append {arguments arguments' : List α} {calls calls' : List (Call ι α)}
    (h : ForEach listener arguments calls) (h' : ForEach listener arguments' calls') :
    ForEach listener (arguments ++ arguments') (calls ++ calls') where
  installed := by
    intro name hname
    rw [h.installed name hname, h'.installed name hname, List.map_append]
  absent := by
    intro hnone
    rw [h.absent hnone, h'.absent hnone, List.append_nil]

end Call

/-- If the answer of each step says what the listener was called with, so do the answers of a
run. -/
theorem Step.run_forEach {act : σ → κ → Step σ (Call ι α) ρ} {told : ρ → List α}
    (Inv : σ → Prop)
    (h : ∀ s i, Inv s →
      Call.ForEach listener (told (act s i).result) (act s i).events ∧ Inv (act s i).state)
    {s : σ} (hs : Inv s) (is : List κ) :
    Call.ForEach listener ((run act s is).result.flatMap told) (run act s is).events := by
  induction is generalizing s with
  | nil => exact Call.forEach_nil listener
  | cons i is ih =>
      obtain ⟨hcalls, hnext⟩ := h s i hs
      exact hcalls.append (ih hnext)

end Windowing
