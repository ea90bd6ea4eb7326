import Windowing.Proofs.Calls
import Windowing.Proofs.Visibility.Single
import Windowing.Visibility.Observer

/-!
# Observers act once

Which call makes a region visible can be read off the calls before it (`Makes`). An observer
goes by two things, its phase and whether it was disconnected. `Follows` is what these have to
do with the calls so far (`Fits` for each phase), and every call keeps it (`Follows.step`, and
`Follows.run` for a whole run). In particular the two agree (`Follows.sound`): a phase that can
still change is one before any disconnect. So an observer answers a call with `true` exactly if
the call makes the region visible (`Follows.fires_iff`), and once one has, no later one does
(`Seen.not_makes`). `visible_once` puts this together.
-/

namespace Windowing

/-! ## Reports -/

/-- The sighting that is reported, geometry being measured with the margin of the observer. -/
def Observation.sighting? (margin : Float) : Observation → Option Sighting
  | .sight s => some s
  | .geometry region viewport => some (Sighting.measure region viewport margin)
  | _ => none

/-- A report that enough of the region is in view. -/
def VisibilitySettings.Shows {ι : Type} (settings : VisibilitySettings ι) (x : Observation) :
    Prop :=
  ∃ s, x.sighting? settings.triggerMargin = some s
    ∧ s.intersecting = true ∧ settings.threshold ≤ s.ratio

namespace Observer

variable {ι : Type} {settings : VisibilitySettings ι} {support : IntersectionSupport}
  {past : List Observation} {x : Observation} {o : Observer ι}

/-! ## The call that makes the region visible -/

/-- Since the observer was first told to observe, no report showed the region. -/
def Unshown (settings : VisibilitySettings ι) (past : List Observation) : Prop :=
  ∀ before y rest, past = before ++ y :: rest → .observe ∈ before → ¬ settings.Shows y

/-- After the calls in `past`, the call `x` makes the region visible. Without intersection
source it is the first call to observe, otherwise the first report after it that shows the
region; in either case nothing was disconnected before. -/
def Makes (settings : VisibilitySettings ι) :
    IntersectionSupport → List Observation → Observation → Prop
  | .unsupported, past, x => x = .observe ∧ .observe ∉ past ∧ .disconnect ∉ past
  | .native, past, x =>
    settings.Shows x ∧ .observe ∈ past ∧ .disconnect ∉ past ∧ Unshown settings past

/-- One of the calls made the region visible. -/
def Seen (settings : VisibilitySettings ι) (support : IntersectionSupport)
    (past : List Observation) : Prop :=
  ∃ before x rest, past = before ++ x :: rest ∧ Makes settings support before x

theorem eq_concat_split {α : Type} {past before rest : List α} {x y : α}
    (h : past ++ [x] = before ++ y :: rest) :
    (past = before ∧ x = y) ∨ ∃ rest', past = before ++ y :: rest' := by
  rcases List.eq_nil_or_concat rest with rfl | ⟨rest', z, rfl⟩
  · obtain ⟨hpast, hx⟩ := List.append_inj' h rfl
    exact Or.inl ⟨hpast, List.head_eq_of_cons_eq hx⟩
  · have h' : past ++ [x] = (before ++ y :: rest') ++ [z] := by
      simpa [List.concat_eq_append] using h
    exact Or.inr ⟨rest', (List.append_inj' h' rfl).1⟩

theorem seen_concat :
    Seen settings support (past ++ [x])
      ↔ Seen settings support past ∨ Makes settings support past x := by
  constructor
  · rintro ⟨before, y, rest, hpast, hmakes⟩
    rcases eq_concat_split hpast with ⟨rfl, rfl⟩ | ⟨rest', rfl⟩
    · exact Or.inr hmakes
    · exact Or.inl ⟨before, y, rest', rfl, hmakes⟩
  · rintro (⟨before, y, rest, rfl, hmakes⟩ | hmakes)
    · exact ⟨before, y, rest ++ [x], by simp, hmakes⟩
    · exact ⟨past, x, [], rfl, hmakes⟩

theorem Unshown.concat (h : Unshown settings past)
    (hx : .observe ∈ past → ¬ settings.Shows x) : Unshown settings (past ++ [x]) := by
  intro before y rest hpast hobserve
  rcases eq_concat_split hpast with ⟨rfl, rfl⟩ | ⟨rest', hpast'⟩
  · exact hx hobserve
  · exact h before y rest' hpast' hobserve

theorem Makes.not_disconnected (h : Makes settings support past x) : .disconnect ∉ past := by
  cases support with
  | native => exact h.2.2.1
  | unsupported => exact h.2.2

/-- The call that makes the region visible is the only one. -/
theorem Seen.not_makes (h : Seen settings support past) : ¬ Makes settings support past x := by
  obtain ⟨before, y, rest, rfl, hmakes⟩ := h
  intro hmakes'
  cases support with
  | native =>
      obtain ⟨hshows, hobserve, -, -⟩ := hmakes
      exact hmakes'.2.2.2 before y rest rfl hobserve hshows
  | unsupported =>
      obtain ⟨rfl, -, -⟩ := hmakes
      exact hmakes'.2.1 (by simp)

/-! ## One call -/

/-- Whether the region becomes visible by a call, from what the observer knows. -/
def Fires (o : Observer ι) (x : Observation) : Prop :=
  o.disposed = false
    ∧ ((o.phase = .unobserved ∧ o.support = .unsupported ∧ x = .observe)
      ∨ (o.phase = .observing
        ∧ ∃ s, x.sighting? o.settings.triggerMargin = some s ∧ o.accepts s = true))

/-- What any other call leaves behind. -/
def idle (o : Observer ι) : Observation → Observer ι
  | .observe => if o.disposed || o.phase ≠ .unobserved then o else { o with phase := .observing }
  | .disconnect => o.disconnect
  | .sight _ | .geometry .. => o

/-- Against a threshold that is a number, a sighting is enough if it reaches it. -/
theorem accepts_iff {s : Sighting} (h : o.settings.threshold.isNaN = false) :
    o.accepts s = true ↔ s.intersecting = true ∧ o.settings.threshold ≤ s.ratio := by
  simp only [accepts, Bool.and_eq_true, Bool.not_eq_true', decide_eq_false_iff_not]
  constructor
  · rintro ⟨⟨hintersecting, hnan⟩, hlt⟩
    exact ⟨hintersecting, (Binary.single_not_lt_iff hnan h).mp hlt⟩
  · rintro ⟨hintersecting, hle⟩
    obtain ⟨-, hnan⟩ := Binary.single_isNaN_of_le hle
    exact ⟨⟨hintersecting, hnan⟩, (Binary.single_not_lt_iff hnan h).mpr hle⟩

/-- Both ways of reporting are one: geometry is measured, then judged like a sighting. -/
theorem apply_of_sighting {s : Sighting}
    (h : x.sighting? o.settings.triggerMargin = some s) : o.apply x = o.sight s := by
  cases x with
  | sight s' =>
      cases h
      rfl
  | geometry region viewport =>
      cases h
      show o.sightGeometry region viewport = _
      rw [sightGeometry, sight]
      split <;> rfl
  | observe => cases h
  | disconnect => cases h

theorem apply_of_fires (h : o.Fires x) : o.apply x = o.trigger := by
  obtain ⟨hlive, ⟨hphase, hsupport, rfl⟩ | ⟨hphase, s, hs, haccepts⟩⟩ := h
  · show o.observe = _
    simp [observe, hlive, hphase, hsupport]
  · rw [apply_of_sighting hs]
    simp [sight, isObserving, hlive, hphase, haccepts]

theorem apply_of_not_fires (h : ¬ o.Fires x) : o.apply x = .quiet (o.idle x) false := by
  cases hs : x.sighting? o.settings.triggerMargin with
  | some s =>
      have hidle : o.idle x = o := by
        cases x <;> first | rfl | cases hs
      rw [apply_of_sighting hs, sight, hidle]
      split
      · rfl
      · rename_i hguard
        rw [if_neg]
        intro haccepts
        simp only [isObserving, Bool.or_eq_true, Bool.not_eq_true', decide_eq_false_iff_not,
          not_or, not_not, Bool.not_eq_true] at hguard
        exact h ⟨hguard.1, Or.inr ⟨hguard.2, s, hs, haccepts⟩⟩
  | none =>
      cases x with
      | sight s => cases hs
      | geometry region viewport => cases hs
      | disconnect => rfl
      | observe =>
          show o.observe = _
          rw [observe, idle]
          split
          · rfl
          · rename_i hguard
            cases hsupport : o.support with
            | native => rfl
            | unsupported =>
                simp only [Bool.or_eq_true, decide_eq_true_iff, ne_eq, not_or, not_not,
                  Bool.not_eq_true] at hguard
                exact absurd ⟨hguard.1, Or.inl ⟨hguard.2, hsupport, rfl⟩⟩ h

theorem Fires.ne_disconnect (h : o.Fires x) : x ≠ .disconnect := by
  rintro rfl
  obtain ⟨-, ⟨-, -, hx⟩ | ⟨-, s, hs, -⟩⟩ := h
  · cases hx
  · cases hs

theorem idle_kept (o : Observer ι) (x : Observation) :
    (o.idle x).settings = o.settings ∧ (o.idle x).support = o.support := by
  cases x with
  | observe =>
      rw [idle]
      split <;> exact ⟨rfl, rfl⟩
  | disconnect =>
      rw [idle, disconnect]
      split <;> exact ⟨rfl, rfl⟩
  | _ => exact ⟨rfl, rfl⟩

theorem idle_disposed_iff :
    (o.idle x).disposed = true ↔ o.disposed = true ∨ x = .disconnect := by
  cases x with
  | observe =>
      rw [idle]
      split <;> simp
  | disconnect =>
      rw [idle, disconnect]
      split <;> simp_all
  | _ => simp [idle]

theorem idle_phase_of_final (h : o.phase = .triggered ∨ o.phase = .disconnected)
    (x : Observation) : (o.idle x).phase = o.phase := by
  cases x with
  | observe => rcases h with h | h <;> simp [idle, h]
  | disconnect =>
      rw [idle, disconnect]
      split
      · rfl
      · rcases h with h | h <;> simp [h]
  | _ => rfl

theorem idle_isMaterialized (o : Observer ι) (x : Observation) :
    (o.idle x).isMaterialized = o.isMaterialized := by
  cases x with
  | observe =>
      rw [idle]
      split
      · rfl
      · rename_i hguard
        simp only [Bool.or_eq_true, decide_eq_true_iff, ne_eq, not_or, not_not] at hguard
        simp [isMaterialized, hguard.2]
  | disconnect =>
      rw [idle, disconnect]
      split
      · rfl
      · by_cases hphase : o.phase = .triggered <;> simp [isMaterialized, hphase]
  | _ => rfl

/-! ## What a phase says of the calls so far -/

/-- The calls that lead to each phase. -/
def Fits (settings : VisibilitySettings ι) (support : IntersectionSupport)
    (past : List Observation) : ObserverPhase → Prop
  | .unobserved => .observe ∉ past ∧ .disconnect ∉ past
  | .observing =>
    support = .native ∧ .observe ∈ past ∧ .disconnect ∉ past ∧ Unshown settings past
  | .triggered => Seen settings support past
  | .disconnected => .disconnect ∈ past ∧ ¬ Seen settings support past

theorem Seen.observe_mem (h : Seen settings support past) : .observe ∈ past := by
  obtain ⟨before, x, rest, rfl, hmakes⟩ := h
  cases support with
  | native => exact List.mem_append_left _ hmakes.2.1
  | unsupported =>
      obtain ⟨rfl, -, -⟩ := hmakes
      simp

theorem unshown_of_unobserved (h : .observe ∉ past) : Unshown settings past := by
  intro before y rest hpast hobserve
  exact absurd (hpast ▸ List.mem_append_left _ hobserve) h

theorem Unshown.not_seen (h : Unshown settings past) : ¬ Seen settings .native past := by
  rintro ⟨before, y, rest, hpast, hshows, hobserve, -⟩
  exact h before y rest hpast hobserve hshows

theorem Fits.materialized_iff {phase : ObserverPhase} (h : Fits settings support past phase) :
    phase = .triggered ↔ Seen settings support past := by
  cases phase with
  | unobserved => simpa using fun hseen : Seen settings support past => h.1 hseen.observe_mem
  | observing =>
      obtain ⟨rfl, -, -, hunshown⟩ := h
      simpa using hunshown.not_seen
  | triggered => exact iff_of_true rfl h
  | disconnected => simpa using h.2

/-! ## Whole runs -/

/-- The phase and the record of disconnecting belong together. -/
structure Sound (o : Observer ι) : Prop where
  /-- Only disconnecting leads to the phase that is named for it. -/
  disposed_of_disconnected : o.phase = .disconnected → o.disposed = true
  /-- A phase that can still change is one before any disconnect. -/
  final_of_disposed : o.disposed = true → o.phase = .triggered ∨ o.phase = .disconnected

/-- An observer with these settings that has taken in these calls. -/
structure Follows (settings : VisibilitySettings ι) (support : IntersectionSupport)
    (past : List Observation) (o : Observer ι) : Prop where
  settings_eq : o.settings = settings
  support_eq : o.support = support
  threshold_isNaN : settings.threshold.isNaN = false
  fits : Fits settings support past o.phase
  disposed_iff : o.disposed = true ↔ .disconnect ∈ past

namespace Follows

theorem create (h : create settings support = .ok o) : Follows settings support [] o := by
  obtain ⟨⟨⟩, hcheck, rfl⟩ := SettingError.passed_of_map_eq_ok h
  refine ⟨rfl, rfl, ?_, by simp [Fits], by simp⟩
  unfold VisibilitySettings.check at hcheck
  split at hcheck
  · cases hcheck
  · rename_i hthreshold
    exact (Binary.single_isNaN_of_le (not_not.mp hthreshold).1).2

theorem sound (h : Follows settings support past o) : o.Sound where
  disposed_of_disconnected := by
    intro hphase
    have hfits := h.fits
    rw [hphase] at hfits
    exact h.disposed_iff.mpr hfits.1
  final_of_disposed := by
    intro hdisposed
    have hmem := h.disposed_iff.mp hdisposed
    have hfits := h.fits
    cases hphase : o.phase with
    | unobserved =>
        rw [hphase] at hfits
        exact absurd hmem hfits.2
    | observing =>
        rw [hphase] at hfits
        exact absurd hmem hfits.2.2.1
    | triggered => exact Or.inl rfl
    | disconnected => exact Or.inr rfl

theorem disposed_eq_false (h : Follows settings support past o) (hpast : .disconnect ∉ past) :
    o.disposed = false := by
  rw [← Bool.not_eq_true, h.disposed_iff]
  exact hpast

theorem fires_iff (h : Follows settings support past o) :
    o.Fires x ↔ Makes settings support past x := by
  have hlive := h.disposed_eq_false
  obtain ⟨rfl, rfl, hthreshold, hfits, -⟩ := h
  have hshows : (∃ s, x.sighting? o.settings.triggerMargin = some s ∧ o.accepts s = true)
      ↔ o.settings.Shows x :=
    exists_congr fun s => and_congr_right fun _ => accepts_iff hthreshold
  cases hphase : o.phase with
  | unobserved =>
      rw [hphase] at hfits
      obtain ⟨hobserve, hdisconnect⟩ := hfits
      cases hsupport : o.support <;>
        simp [Fires, Makes, hphase, hsupport, hlive hdisconnect, hobserve, hdisconnect]
  | observing =>
      rw [hphase] at hfits
      obtain ⟨hsupport, hobserve, hdisconnect, hunshown⟩ := hfits
      simp [Fires, Makes, hphase, hsupport, hshows, hlive hdisconnect, hobserve, hdisconnect,
        hunshown]
  | triggered =>
      rw [hphase] at hfits
      simpa [Fires, hphase] using hfits.not_makes
  | disconnected =>
      rw [hphase] at hfits
      simpa [Fires, hphase] using fun hmakes => hmakes.not_disconnected hfits.1

theorem fits_of_unobserved (h : Follows settings support past o) (hphase : o.phase = .unobserved)
    (hx : ¬ Makes settings support past x) :
    Fits settings support (past ++ [x]) (o.idle x).phase := by
  have hfits := h.fits
  rw [hphase] at hfits
  obtain ⟨hobserve, hdisconnect⟩ := hfits
  have hlive := h.disposed_eq_false hdisconnect
  cases x with
  | observe =>
      -- Without intersection source this would be the call that makes it visible.
      cases support with
      | unsupported => exact absurd ⟨rfl, hobserve, hdisconnect⟩ hx
      | native =>
          have hidle : (o.idle .observe).phase = .observing := by simp [idle, hphase, hlive]
          rw [hidle]
          refine ⟨rfl, by simp, by simp [hdisconnect], ?_⟩
          exact (unshown_of_unobserved hobserve).concat fun hmem => absurd hmem hobserve
  | disconnect =>
      have hidle : (o.idle .disconnect).phase = .disconnected := by
        simp [idle, disconnect, hphase, hlive]
      rw [hidle]
      refine ⟨by simp, fun hseen => ?_⟩
      rcases seen_concat.mp hseen with hseen | hmakes
      · exact hobserve hseen.observe_mem
      · exact hx hmakes
  | sight s =>
      rw [idle, hphase]
      exact ⟨by simp [hobserve], by simp [hdisconnect]⟩
  | geometry region viewport =>
      rw [idle, hphase]
      exact ⟨by simp [hobserve], by simp [hdisconnect]⟩

theorem fits_of_observing (h : Follows settings support past o) (hphase : o.phase = .observing)
    (hx : ¬ Makes settings support past x) :
    Fits settings support (past ++ [x]) (o.idle x).phase := by
  have hfits := h.fits
  rw [hphase] at hfits
  obtain ⟨rfl, hobserve, hdisconnect, hunshown⟩ := hfits
  have hlive := h.disposed_eq_false hdisconnect
  have hshows : ¬ settings.Shows x := fun hs => hx ⟨hs, hobserve, hdisconnect, hunshown⟩
  have hunshown' := hunshown.concat fun _ => hshows
  cases x with
  | disconnect =>
      have hidle : (o.idle .disconnect).phase = .disconnected := by
        simp [idle, disconnect, hphase, hlive]
      rw [hidle]
      exact ⟨by simp, hunshown'.not_seen⟩
  | observe =>
      have hidle : (o.idle .observe).phase = .observing := by simp [idle, hphase]
      rw [hidle]
      exact ⟨rfl, by simp [hobserve], by simp [hdisconnect], hunshown'⟩
  | sight s =>
      rw [idle, hphase]
      exact ⟨rfl, by simp [hobserve], by simp [hdisconnect], hunshown'⟩
  | geometry region viewport =>
      rw [idle, hphase]
      exact ⟨rfl, by simp [hobserve], by simp [hdisconnect], hunshown'⟩

/-- A call that does not make the region visible leads to a phase that fits. -/
theorem fits_idle (h : Follows settings support past o) (hx : ¬ Makes settings support past x) :
    Fits settings support (past ++ [x]) (o.idle x).phase := by
  have hfits := h.fits
  have hseen : Seen settings support (past ++ [x]) ↔ Seen settings support past := by
    rw [seen_concat, or_iff_left hx]
  cases hphase : o.phase with
  | unobserved => exact h.fits_of_unobserved hphase hx
  | observing => exact h.fits_of_observing hphase hx
  | triggered =>
      rw [hphase] at hfits
      rw [idle_phase_of_final (Or.inl hphase), hphase]
      exact hseen.mpr hfits
  | disconnected =>
      rw [hphase] at hfits
      obtain ⟨hdisconnect, hunseen⟩ := hfits
      rw [idle_phase_of_final (Or.inr hphase), hphase]
      exact ⟨List.mem_append_left _ hdisconnect, fun hs => hunseen (hseen.mp hs)⟩

theorem step (h : Follows settings support past o) (x : Observation) :
    Follows settings support (past ++ [x]) (o.apply x).state
      ∧ ((o.apply x).result = true ↔ Makes settings support past x)
      ∧ Call.ForEach settings.listener (if (o.apply x).result then [()] else [])
        (o.apply x).events := by
  by_cases hx : Makes settings support past x
  · have hfires := h.fires_iff.mpr hx
    rw [apply_of_fires hfires]
    refine ⟨⟨h.settings_eq, h.support_eq, h.threshold_isNaN, seen_concat.mpr (Or.inr hx), ?_⟩,
      iff_of_true rfl hx, ?_⟩
    · show o.disposed = true ↔ _
      rw [h.disposed_iff, List.mem_append, List.mem_singleton,
        or_iff_left hfires.ne_disconnect.symm]
    · rw [← h.settings_eq]
      exact Call.forEach_deliver o.settings.listener ()
  · obtain ⟨hsettings, hsupport⟩ := o.idle_kept x
    rw [apply_of_not_fires (fun hfires => hx (h.fires_iff.mp hfires))]
    refine ⟨⟨hsettings.trans h.settings_eq, hsupport.trans h.support_eq, h.threshold_isNaN,
      h.fits_idle hx, ?_⟩, iff_of_false Bool.false_ne_true hx, Call.forEach_nil settings.listener⟩
    rw [Step.quiet_state, idle_disposed_iff, h.disposed_iff, List.mem_append, List.mem_singleton,
      eq_comm (a := x)]

theorem run (h : Follows settings support past o) (calls : List Observation) :
    Follows settings support (past ++ calls) (Step.run apply o calls).state := by
  induction calls generalizing past o with
  | nil =>
      rw [List.append_nil]
      exact h
  | cons x calls ih =>
      have hrest := ih (h.step x).1
      rw [List.append_assoc] at hrest
      exact hrest

end Follows

theorem final_apply (h : o.phase = .triggered ∨ o.phase = .disconnected) (x : Observation) :
    (o.apply x).state.phase = o.phase := by
  have hfires : ¬ o.Fires x := by
    rintro ⟨-, ⟨hphase, -⟩ | ⟨hphase, -⟩⟩ <;> rw [hphase] at h <;> simp at h
  rw [apply_of_not_fires hfires]
  exact idle_phase_of_final h x

theorem final_run (h : o.phase = .triggered ∨ o.phase = .disconnected)
    (calls : List Observation) : (Step.run apply o calls).state.phase = o.phase := by
  induction calls generalizing o with
  | nil => rfl
  | cons x calls ih =>
      have hphase := final_apply h x
      rw [← hphase] at h
      exact (ih h).trans hphase

/-- An answer `true` takes the observer from not materialized to materialized, and nothing else
does. -/
theorem materialized_apply (o : Observer ι) (x : Observation) :
    (o.apply x).state.isMaterialized.toNat
      = o.isMaterialized.toNat + (o.apply x).result.toNat := by
  by_cases h : o.Fires x
  · rw [apply_of_fires h]
    obtain ⟨-, ⟨hphase, -⟩ | ⟨hphase, -⟩⟩ := h <;> simp [isMaterialized, hphase, trigger]
  · rw [apply_of_not_fires h]
    simp [idle_isMaterialized]

theorem materialized_run (o : Observer ι) (calls : List Observation) :
    (Step.run apply o calls).state.isMaterialized.toNat
      = o.isMaterialized.toNat + (Step.run apply o calls).result.count true := by
  induction calls generalizing o with
  | nil => rfl
  | cons x calls ih =>
      have hstep := materialized_apply o x
      have hrest := ih (o.apply x).state
      simp only [Step.run, Step.andThen_state, Step.andThen_result, Step.map_state,
        Step.map_result, List.count_cons]
      cases hr : (o.apply x).result <;> simp [hr] at hstep ⊢ <;> omega

/-! ## Reports that are no use -/

/-- A report whose ratio is no number, or geometry that is not finite. -/
def Malformed : Observation → Prop
  | .sight s => s.ratio.isNaN = true
  | .geometry region viewport => region.isFinite = false ∨ viewport.isFinite = false
  | _ => False

theorem Malformed.not_accepts (h : Malformed x) {margin : Float} {s : Sighting}
    (hs : x.sighting? margin = some s) : o.accepts s = false := by
  cases x with
  | sight s' =>
      cases hs
      have hnan : s.ratio.isNaN = true := h
      rw [accepts, hnan, Bool.not_true, Bool.and_false, Bool.false_and]
  | geometry region viewport =>
      cases hs
      rw [Sighting.measure, if_neg]
      · rfl
      · rcases h with h | h <;> simp [h]
  | observe => exact h.elim
  | disconnect => exact h.elim

theorem Malformed.apply (h : Malformed x) : o.apply x = .quiet o false := by
  have hfires : ¬ o.Fires x := by
    rintro ⟨-, ⟨-, -, rfl⟩ | ⟨-, s, hs, haccepts⟩⟩
    · exact h
    · rw [h.not_accepts hs] at haccepts
      cases haccepts
  rw [apply_of_not_fires hfires]
  cases x with
  | sight s => rfl
  | geometry region viewport => rfl
  | observe => exact h.elim
  | disconnect => exact h.elim

/-! ## Observers act once -/

/-- One call of the listener for each answer `true`. -/
theorem flatMap_told (answers : List Bool) :
    answers.flatMap (fun answer => if answer then [()] else [])
      = List.replicate (answers.count true) () := by
  induction answers with
  | nil => rfl
  | cons answer answers ih => cases answer <;> simp [ih, List.replicate_succ]

/-- What a run of calls on a new observer comes to. -/
structure OneShot (settings : VisibilitySettings ι) (support : IntersectionSupport)
    (calls : List Observation) (t : Step (Observer ι) (Call ι Unit) (List Bool)) : Prop where
  /-- Each call answers whether it made the region visible. -/
  answer : ∀ before x rest, calls = before ++ x :: rest →
    (t.result[before.length]? = some true ↔ Makes settings support before x)
  count_true : t.result.count true = if t.state.isMaterialized then 1 else 0
  /-- The listener is told once for a call that answers `true`, and for no other: in the whole
  run, and in any call that may follow. -/
  told : Call.ForEach settings.listener (List.replicate (t.result.count true) ()) t.events
  next_told : ∀ x, Call.ForEach settings.listener
    (if (t.state.apply x).result then [()] else []) (t.state.apply x).events
  materialized : t.state.isMaterialized = true
    ↔ ∃ before x rest, calls = before ++ x :: rest ∧ Makes settings support before x
  disposed : t.state.disposed = true ↔ .disconnect ∈ calls
  sound : t.state.Sound
  final : t.state.phase = .triggered ∨ t.state.phase = .disconnected →
    ∀ more, (Step.run Observer.apply t.state more).state.phase = t.state.phase
  malformed : ∀ x, Malformed x → t.state.apply x = .quiet t.state false

/-- Whatever a new observer is told, and in whatever order: it answers `true` to the call that
makes the region visible, if there is one, and to no other. -/
theorem visible_once (h : create settings support = .ok o) (calls : List Observation) :
    OneShot settings support calls (Step.run apply o calls) where
  answer := by
    rintro before x rest rfl
    have hbefore : Follows settings support ([] ++ before) (Step.run apply o before).state :=
      (Follows.create h).run before
    rw [Step.run_result_getElem? apply o (i := x) (by simp), List.take_left, Option.some_inj]
    exact (hbefore.step x).2.1
  count_true := by
    have hcount := materialized_run o calls
    have hnew : o.isMaterialized = false := by
      rw [isMaterialized, decide_eq_false_iff_not, (Follows.create h).fits.materialized_iff]
      exact fun hseen => List.not_mem_nil hseen.observe_mem
    rw [hnew] at hcount
    cases hm : (Step.run apply o calls).state.isMaterialized <;> simp [hm] at hcount ⊢ <;> omega
  told := by
    rw [← flatMap_told]
    refine Step.run_forEach (fun o => ∃ past, Follows settings support past o) ?_
      ⟨[], Follows.create h⟩ calls
    rintro o x ⟨past, ho⟩
    obtain ⟨hnext, -, hcalls⟩ := ho.step x
    exact ⟨hcalls, _, hnext⟩
  next_told := fun x => (((Follows.create h).run calls).step x).2.2
  materialized := by
    have hrun := (Follows.create h).run calls
    rw [isMaterialized, decide_eq_true_iff]
    exact hrun.fits.materialized_iff
  disposed := ((Follows.create h).run calls).disposed_iff
  sound := ((Follows.create h).run calls).sound
  final := fun hfinal more => final_run hfinal more
  malformed := fun _ hx => hx.apply

/-- A report before the observer is told to observe, one that is no number, one that shows too
little, and two that show enough, the second after a disconnect. -/
theorem visible_once_native :
    ∃ (o : Observer Nat) (calls : List Observation),
      create { threshold := 0.5, triggerMargin := 0.0, listener := some 3 } .native = .ok o
      ∧ calls = [.sight ⟨true, 1.0⟩, .observe, .sight ⟨true, 0.0 / 0.0⟩, .sight ⟨true, 0.25⟩,
          .geometry ⟨0.0, 0.0, 4.0, 2.0⟩ ⟨0.0, 0.0, 4.0, 1.0⟩, .disconnect, .sight ⟨true, 1.0⟩]
      ∧ (Step.run apply o calls).result = [false, false, false, false, true, false, false]
      ∧ (Step.run apply o calls).events = [⟨3, ()⟩]
      ∧ OneShot { threshold := 0.5, triggerMargin := 0.0, listener := some 3 } .native calls
          (Step.run apply o calls) := by
  have h : create { threshold := 0.5, triggerMargin := 0.0, listener := some 3 } .native
      = .ok (_ : Observer Nat) := rfl
  refine ⟨_, _, h, rfl, ?_, ?_, visible_once h _⟩
  · decide +kernel
  · refine ((visible_once h _).told.installed 3 rfl).trans ?_
    refine congrArg (fun n => (List.replicate n ()).map (Call.mk 3)) (?_ : _ = 1)
    decide +kernel

end Observer

end Windowing
