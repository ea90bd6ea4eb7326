import Mathlib
import Windowing.RenderGate.Basic

/-!
# Gates go by the last rendering

A gate is asked with one dependency after the other, but the one that it compares with is that of
the last rendering, whatever it was asked since. Which one that is can be read off the requests
and their answers (`Recorded`): it was let pass, and every request since was turned away. `Goes`
says so of the state of a gate, and every request keeps it (`Goes.step`, and `Goes.run` for a
whole run). The way of comparing need not be an equality. Where it is one, it makes no difference
whether a gate keeps what it has turned away, or which of the two it names first; elsewhere it does
(`goes_by_last_rendering`).
-/

namespace Windowing

namespace RenderGate

variable {δ : Type} {same : Option (δ → δ → Bool)} {g : RenderGate δ} {r d : δ}
  {log : List (Request δ × Bool)} {x : Request δ} {b : Bool}

/-! ## What a log records -/

/-- The last dependency that was let pass, if every request since was a query that was turned
away. -/
def Recorded (log : List (Request δ × Bool)) (r : δ) : Prop :=
  ∃ since, (.query r, true) :: since <:+ log ∧ ∀ e ∈ since, ∃ d, e = (.query d, false)

theorem recorded_concat :
    Recorded (log ++ [(x, b)]) r
      ↔ (x = .query r ∧ b = true) ∨ ((∃ d, x = .query d) ∧ b = false ∧ Recorded log r) := by
  constructor
  · rintro ⟨since, hsuffix, hsince⟩
    obtain hnil | ⟨past, hpast, hsuffix'⟩ := List.suffix_concat_iff.mp hsuffix
    · cases hnil
    cases past with
    | nil =>
        cases hpast
        exact Or.inl ⟨rfl, rfl⟩
    | cons _ past =>
        obtain ⟨rfl, rfl⟩ := List.cons_eq_cons.mp hpast
        obtain ⟨hpast', hlast⟩ := List.forall_mem_append.mp hsince
        obtain ⟨d, hd⟩ := hlast _ (List.mem_singleton_self _)
        cases hd
        exact Or.inr ⟨⟨d, rfl⟩, rfl, past, hsuffix', hpast'⟩
  · rintro (⟨rfl, rfl⟩ | ⟨⟨d, rfl⟩, rfl, since, hsuffix, hsince⟩)
    · exact ⟨[], List.suffix_append .., by simp⟩
    · refine ⟨since ++ [(.query d, false)], List.suffix_concat_iff.mpr (Or.inr ⟨_, rfl, hsuffix⟩),
        List.forall_mem_append.mpr ⟨hsince, ?_⟩⟩
      simp

/-- What a gate knows after the requests in a log, with their answers. -/
structure Goes (same : Option (δ → δ → Bool)) (log : List (Request δ × Bool))
    (g : RenderGate δ) : Prop where
  same_eq : g.same = same
  last_iff : ∀ r, g.last = some r ↔ Recorded log r
  renders_eq : g.renders = min ((log.map Prod.snd).count true) Count.limit

theorem Goes.new (same : Option (δ → δ → Bool)) : Goes same [] { same } where
  same_eq := rfl
  last_iff := by simp [Recorded]
  renders_eq := rfl

theorem Goes.invalidate (h : Goes same log g) :
    Goes same (log ++ [(.invalidate, false)]) g.invalidate := by
  refine ⟨h.same_eq, fun r => ?_, ?_⟩
  · rw [recorded_concat]
    simp [RenderGate.invalidate]
  · rw [List.map_append, List.count_append]
    exact h.renders_eq

variable [BEq δ]

/-! ## One query -/

/-- Nothing has changed from `r` to `d`, by a way of comparing or else by `==`. -/
def Unchanged (same : Option (δ → δ → Bool)) (r d : δ) : Prop := same.getD (· == ·) r d = true

theorem isCurrent_iff : g.isCurrent d = true ↔ ∃ r, g.last = some r ∧ Unchanged g.same r d := by
  have hagrees (r : δ) : g.agrees r d = g.same.getD (· == ·) r d := by
    unfold agrees
    cases g.same <;> rfl
  unfold isCurrent Unchanged
  cases g.last <;> simp [hagrees]

theorem query_of_current (h : g.isCurrent d = true) : g.query d = .quiet g false := if_pos h

theorem query_of_not_current (h : ¬ g.isCurrent d = true) :
    g.query d = .quiet { g with last := some d, renders := Count.add g.renders 1 } true := if_neg h

theorem query_result : (g.query d).result = false ↔ g.isCurrent d = true := by
  by_cases h : g.isCurrent d = true
  · rw [query_of_current h]
    exact iff_of_true rfl h
  · rw [query_of_not_current h]
    exact iff_of_false (Bool.false_ne_true ·.symm) h

/-- Either the dependency is kept, or it is unchanged from the one that is. -/
theorem query_last (g : RenderGate δ) (d : δ) :
    ∃ r, (g.query d).state.last = some r ∧ (r = d ∨ Unchanged g.same r d) := by
  by_cases h : g.isCurrent d = true
  · obtain ⟨r, hr, hsame⟩ := isCurrent_iff.mp h
    rw [query_of_current h]
    exact ⟨r, hr, Or.inr hsame⟩
  · rw [query_of_not_current h]
    exact ⟨d, rfl, Or.inl rfl⟩

/-- If an equality that is symmetric and transitive finds a dependency equal to anything, then it
finds it equal to itself. -/
theorem query_of_irreflexive [PartialEquivBEq δ] (hg : g.same = none) (hd : (d == d) = false) :
    (g.query d).result = true := by
  rw [← Bool.not_eq_false, query_result, isCurrent_iff, hg]
  rintro ⟨r, -, hsame⟩
  have hself : (d == d) = true := PartialEquivBEq.trans (PartialEquivBEq.symm hsame) hsame
  rw [hd] at hself
  cases hself

/-! ## Whole runs -/

namespace Goes

theorem result_iff (h : Goes same log g) :
    (g.query d).result = false ↔ ∃ r, Recorded log r ∧ Unchanged same r d := by
  rw [query_result, isCurrent_iff, h.same_eq]
  exact exists_congr fun r => and_congr_left' (h.last_iff r)

theorem query (h : Goes same log g) (d : δ) :
    Goes same (log ++ [(.query d, (g.query d).result)]) (g.query d).state := by
  by_cases hc : g.isCurrent d = true
  · rw [query_of_current hc]
    refine ⟨h.same_eq, fun r => ?_, ?_⟩
    · rw [recorded_concat]
      simpa using h.last_iff r
    · simpa using h.renders_eq
  · rw [query_of_not_current hc]
    refine ⟨h.same_eq, fun r => ?_, ?_⟩
    · rw [recorded_concat]
      simp
    · show Count.add g.renders 1
        = min (((log ++ [(Request.query d, true)]).map Prod.snd).count true) _
      have hone : ([(Request.query d, true)].map Prod.snd).count true = 1 := rfl
      rw [Count.add, h.renders_eq, List.map_append, List.count_append, hone]
      omega

theorem step (h : Goes same log g) (x : Request δ) :
    Goes same (log ++ [(x, (g.apply x).result)]) (g.apply x).state := by
  cases x with
  | query d => exact h.query d
  | invalidate => exact h.invalidate

theorem run (h : Goes same log g) (rs : List (Request δ)) :
    Goes same (log ++ Step.log apply g rs) (Step.run apply g rs).state := by
  induction rs generalizing log g with
  | nil =>
      rw [Step.log, List.zip_nil_left, List.append_nil]
      exact h
  | cons x rs ih =>
      have hrest := ih (h.step x)
      rw [List.append_assoc] at hrest
      exact hrest

end Goes

/-- Queries that are turned away leave no trace, however many they are. -/
theorem run_of_turned_away {ds : List δ}
    (h : ∀ b ∈ (Step.run apply g (ds.map .query)).result, b = false) :
    (Step.run apply g (ds.map .query)).state = g ∧ ∀ d ∈ ds, g.isCurrent d = true := by
  induction ds with
  | nil => exact ⟨rfl, by simp⟩
  | cons d ds ih =>
      have hfirst : g.isCurrent d = true := query_result.mp (h _ (List.mem_cons_self ..))
      have happly : g.apply (.query d) = .quiet g false := query_of_current hfirst
      rw [List.map_cons, Step.run, happly] at h ⊢
      obtain ⟨hstate, hcurrent⟩ := ih fun b hb => h b (List.mem_cons_of_mem _ hb)
      exact ⟨hstate, List.forall_mem_cons.mpr ⟨hfirst, hcurrent⟩⟩

/-! ## Every gate -/

/-- What a run of requests to a new gate comes to. -/
structure GoesByLast (same : Option (δ → δ → Bool)) (rs : List (Request δ))
    (t : Step (RenderGate δ) Empty (List Bool)) : Prop where
  /-- A query is turned away if nothing has changed since the last rendering, and passes
  otherwise. In the comparison the dependency of that rendering comes first. -/
  answer : ∀ before d rest, rs = before ++ .query d :: rest → ∃ passes,
    t.result[before.length]? = some passes
      ∧ (passes = false
        ↔ ∃ r, Recorded (Step.log apply { same } before) r ∧ Unchanged same r d)
  last : ∀ r, t.state.last = some r ↔ Recorded (Step.log apply { same } rs) r
  renders : t.state.renders = min (t.result.count true) Count.limit
  /-- One more query leaves its own dependency, or one from which it is unchanged. -/
  kept : ∀ d, ∃ r, (t.state.query d).state.last = some r ∧ (r = d ∨ Unchanged same r d)
  /-- Of queries that are turned away in a row, each is unchanged from the same rendering, and so
  is the gate itself. -/
  still : ∀ ds : List δ, (∀ b ∈ (Step.run apply t.state (ds.map .query)).result, b = false) →
    (Step.run apply t.state (ds.map .query)).state = t.state
      ∧ ∀ d ∈ ds, ∃ r, t.state.last = some r ∧ Unchanged same r d
  /-- By plain equality, of which no more is known than that it is symmetric and transitive, a
  dependency that differs from itself always passes. -/
  irreflexive : same = none → ∀ [PartialEquivBEq δ] (d : δ), (d == d) = false →
    (t.state.query d).result = true

/-- Whatever a new gate is asked, and however it compares: it goes by the dependency of the last
rendering, never by one that it was only asked about. -/
theorem goes_by_last_rendering (same : Option (δ → δ → Bool)) (rs : List (Request δ)) :
    GoesByLast same rs (Step.run apply { same } rs) := by
  have hgoes (rs : List (Request δ)) :
      Goes same (Step.log apply { same } rs) (Step.run apply { same } rs).state :=
    (Goes.new same).run rs
  have hrun := hgoes rs
  refine ⟨?_, hrun.last_iff, ?_, ?_, ?_, ?_⟩
  · rintro before d rest rfl
    refine ⟨_, Step.run_result_getElem? apply _ (i := .query d) (by simp), ?_⟩
    rw [List.take_left]
    exact (hgoes before).result_iff
  · rw [hrun.renders_eq, Step.map_snd_log]
  · intro d
    have hkept := query_last (Step.run apply { same } rs).state d
    rwa [hrun.same_eq] at hkept
  · intro ds hds
    obtain ⟨hstate, hcurrent⟩ := run_of_turned_away hds
    refine ⟨hstate, fun d hd => ?_⟩
    have hunchanged := isCurrent_iff.mp (hcurrent d hd)
    rwa [hrun.same_eq] at hunchanged
  · intro hsame _ d hd
    exact query_of_irreflexive (hrun.same_eq.trans hsame) hd

/-- Three numbers of which neighbours compare as the same. The third is compared with the first, and
passes. -/
example : (Step.run apply ({ same := some fun r d => decide (d ≤ r + 1) } : RenderGate Nat)
    [.query 5, .query 6, .query 7, .query 0]).result = [true, false, true, false] := by
  decide

end RenderGate

end Windowing
