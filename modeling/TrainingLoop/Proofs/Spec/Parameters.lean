import TrainingLoop.Proofs.Spec.Completion
/-!
# The parameters of a schedule

What the parameters of an accepted schedule come to (`build_parameter`). Validation looks at their
keys alone, and a value that is not of the kind that its key asks for is the same as no value.
-/

namespace TrainingLoop

/-! ## Settings -/

inductive Setting where
  | count (n : Nat)
  | number (x : Float32)
  deriving DecidableEq

def Schedule.setting? : Schedule → String → Option Setting
  | cosine s, "t_max" => some (.count s.length)
  | cosine s, "lr_min" => some (.number s.lowest)
  | warmup s, "warmup_steps" => some (.count s.length)
  | stepDecay s, "step_size" => some (.count s.stepSize)
  | stepDecay s, "gamma" => some (.number s.gamma)
  | plateau s, "factor" => some (.number s.factor)
  | plateau s, "patience" => some (.count s.patience)
  | plateau s, "lr_min" => some (.number s.lowest)
  | plateau s, "min_delta" => some (.number s.minDelta)
  | _, _ => none

def countKeys : List String := ["t_max", "warmup_steps", "step_size", "patience"]

/-- The setting that a value is to a key. A count has to be a natural number; any number will do for
the others, and is rounded. -/
def ParameterValue.setting? (key : String) : ParameterValue → Option Setting
  | natural n =>
    if key ∈ countKeys then some (.count n) else some (.number (Double.narrow (Float.ofNat n)))
  | negative n =>
    if key ∈ countKeys then none else some (.number (Double.narrow (-Float.ofNat n)))
  | real x => if key ∈ countKeys then none else some (.number (Double.narrow x))
  | null | bool _ | text _ | list _ | record _ => none

namespace ScheduleSpec

variable {s : ScheduleSpec} {kind : ScheduleKind}

/-- The specification without its parameters, which leaves every setting at its default. -/
def bare (s : ScheduleSpec) : ScheduleSpec := { s with parameters := [] }

theorem natural_setting {key : String} (hkey : key ∈ countKeys) (default : Nat) :
    Setting.count (s.natural key default) =
      ((s.parameter? key).bind (·.setting? key)).getD (.count default) := by
  unfold natural
  cases s.parameter? key with
  | none => rfl
  | some v => cases v <;> simp [ParameterValue.setting?, ParameterValue.natural?, hkey]

theorem single_setting {key : String} (hkey : key ∉ countKeys) (default : Float32) :
    Setting.number (s.single key default) =
      ((s.parameter? key).bind (·.setting? key)).getD (.number default) := by
  unfold single
  cases s.parameter? key with
  | none => rfl
  | some v => cases v <;> simp [ParameterValue.setting?, ParameterValue.single?, hkey]

/-- Each key of a kind sets what its value is, and leaves the default where that is nothing. -/
theorem schedule_setting {key : String} (hkey : key ∈ kind.parameters) :
    ∃ default, (s.bare.schedule kind).setting? key = some default ∧
      (s.schedule kind).setting? key =
        some (((s.parameter? key).bind (·.setting? key)).getD default) := by
  cases kind <;>
    simp only [ScheduleKind.parameters, List.mem_cons, List.not_mem_nil, or_false] at hkey
  · rcases hkey with rfl | rfl
    · exact ⟨_, rfl, congrArg some (natural_setting (by decide) 100)⟩
    · exact ⟨_, rfl, congrArg some (single_setting (by decide) 0.0)⟩
  · subst hkey
    exact ⟨_, rfl, congrArg some (natural_setting (by decide) 10)⟩
  · rcases hkey with rfl | rfl
    · exact ⟨_, rfl, congrArg some (natural_setting (by decide) 10)⟩
    · exact ⟨_, rfl, congrArg some (single_setting (by decide) 0.1)⟩
  · rcases hkey with rfl | rfl | rfl | rfl
    · exact ⟨_, rfl, congrArg some (single_setting (by decide) 0.1)⟩
    · exact ⟨_, rfl, congrArg some (natural_setting (by decide) 10)⟩
    · exact ⟨_, rfl, congrArg some (single_setting (by decide) 0.0)⟩
    · exact ⟨_, rfl, congrArg some (single_setting (by decide) 0.0)⟩

/-! ## Built schedules -/

theorem build_of_kind (hkind : s.kind? = some kind) :
    ∃ rate, s.build = .ok rate ∧ rate.schedule = s.schedule kind := by
  rw [build, hkind]
  cases s.monitor with
  | none => exact ⟨_, rfl, rfl⟩
  | some key => exact ⟨_, rfl, rfl⟩

theorem Acceptable.mem_parameters {rateFits : Float32 → Prop} (hs : s.Acceptable rateFits kind)
    {key : String} {v : ParameterValue} (hgiven : s.parameter? key = some v) :
    key ∈ kind.parameters := by
  obtain ⟨before, after, hsplit, -⟩ := List.lookup_eq_some_iff.1 hgiven
  refine ScheduleKind.mem_parameters_iff.2 (hs.parameters key ?_)
  rw [hsplit]
  exact List.mem_map_of_mem (List.mem_append_right _ List.mem_cons_self)

/-- A parameter of an accepted schedule sets what its value is to its key. Where the value is
nothing to the key, the parameter has its default, as if it were not there. -/
theorem build_parameter (hs : s.check = .ok ()) :
    ∃ rate bare, s.build = .ok rate ∧ s.bare.build = .ok bare ∧
      ∀ key v, s.parameter? key = some v →
        (∀ given, v.setting? key = some given → rate.schedule.setting? key = some given) ∧
        (v.setting? key = none → ∃ default, bare.schedule.setting? key = some default ∧
          rate.schedule.setting? key = some default) := by
  obtain ⟨kind, hacceptable⟩ := check_eq_ok_iff.1 hs
  have hkind : s.kind? = some kind := ScheduleKind.ofName?_eq_some_iff.2 hacceptable.name
  obtain ⟨rate, hrate, hschedule⟩ := build_of_kind hkind
  obtain ⟨bare, hbare, hdefaults⟩ := build_of_kind (s := s.bare) hkind
  refine ⟨rate, bare, hrate, hbare, fun key v hgiven => ?_⟩
  have hkey := hacceptable.mem_parameters hgiven
  obtain ⟨default, hdefault, hsetting⟩ := schedule_setting (s := s) hkey
  rw [hgiven, Option.bind_some] at hsetting
  rw [hschedule, hdefaults, hsetting]
  constructor
  · intro given hvalue
    rw [hvalue, Option.getD_some]
  · intro hvalue
    exact ⟨default, hdefault, by rw [hvalue, Option.getD_none]⟩

def halfWords : ScheduleSpec :=
  { name := "step_decay"
    rate := 0.5
    parameters := [("step_size", .natural 5), ("gamma", .text "half")] }

theorem build_parameter_halfWords :
    halfWords.check = .ok () ∧ ∃ rate bare, halfWords.build = .ok rate ∧
      halfWords.bare.build = .ok bare ∧ rate.schedule.setting? "step_size" = some (.count 5) ∧
      ∃ default, bare.schedule.setting? "gamma" = some default ∧
        rate.schedule.setting? "gamma" = some default := by
  have hcheck : halfWords.check = .ok () := by rfl
  obtain ⟨rate, bare, hrate, hbare, hsettings⟩ := build_parameter hcheck
  exact ⟨hcheck, rate, bare, hrate, hbare,
    (hsettings "step_size" (.natural 5) rfl).1 (.count 5) rfl,
    (hsettings "gamma" (.text "half") rfl).2 rfl⟩

def wholeReal : ScheduleSpec :=
  { name := "cosine"
    rate := 0.5
    parameters := [("t_max", .real 4.0)] }

theorem build_wholeReal_default :
    wholeReal.check = .ok () ∧ ∃ rate bare, wholeReal.build = .ok rate ∧
      wholeReal.bare.build = .ok bare ∧ rate.schedule.setting? "t_max" = some (.count 100) ∧
      bare.schedule.setting? "t_max" = some (.count 100) :=
  ⟨rfl, _, _, rfl, rfl, rfl, rfl⟩

end ScheduleSpec

end TrainingLoop
