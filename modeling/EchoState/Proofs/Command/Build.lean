import EchoState.Command.Run
import EchoState.Proofs.Draws.Range
import EchoState.Proofs.Matrix.Selector

/-!
# What a request builds

A request is refused for its profile, for a number that is not positive and finite, or for a
negative dimension, and for nothing else: whatever is drawn is accepted, and so is a selector of the
right shape. The reservoir that is built starts at rest.
-/

namespace EchoState

open Binary64

/-! ## What a readout reads -/

section Readout

variable {α : Type} [Scalar α]

/-- The cells of an accepted stored matrix are its cells. -/
theorem Operand.get_of_toSheet {m : Matrix α} (cell : Nat → Nat → α)
    (cells : ∀ i j, m.sheet.get i j = cell i j) {rows cols : Nat} {sheet : Sheet α rows cols}
    (accepted : (stored m).toSheet rows cols = .ok sheet) (i : Fin rows) (j : Fin cols) :
    sheet.get i j = cell i j := by
  obtain ⟨mRows, mCols, given⟩ := m
  unfold toSheet at accepted
  by_cases same : mRows = rows ∧ mCols = cols
  · obtain ⟨rfl, rfl⟩ := same
    simp only [and_self, dite_true, Outcome.bind_eq_ok_iff, Outcome.pure_eq_ok_iff] at accepted
    obtain ⟨_, _, rfl⟩ := accepted
    rw [Sheet.cast_rfl]
    exact cells i j
  · simp only [dif_neg same] at accepted
    cases accepted

theorem Matrix.get_zeros {rows cols : Int} {m : Matrix α} (made : zeros rows cols = .ok m)
    (i : Fin m.rows) (j : Fin m.cols) : m.sheet.get i j = 0 := by
  simp only [zeros, Outcome.bind_eq_ok_iff, Outcome.pure_eq_ok_iff] at made
  obtain ⟨_, _, rfl⟩ := made
  exact Sheet.get_zero i j

namespace Reservoir

variable {d : Dims} {r next : Reservoir α d}

theorem get_readoutWeights_of_assign {m : Matrix α} (cell : Nat → Nat → α)
    (cells : ∀ i j, m.sheet.get i j = cell i j)
    (assigned : r.assignReadoutWeights (.stored m) = .ok next) (i : Fin d.outputs)
    (j : Fin d.latents) : next.readoutWeights.get i j = cell i j := by
  simp only [assignReadoutWeights, Outcome.within_eq_ok_iff, Outcome.bind_eq_ok_iff,
    Outcome.pure_eq_ok_iff] at assigned
  obtain ⟨sheet, accepted, rfl⟩ := assigned
  exact Operand.get_of_toSheet cell cells accepted i j

theorem readoutWeights_of_anchorWithin {point : Vector α d.latents}
    (anchored : r.anchorWithin point = .ok next) : next.readoutWeights = r.readoutWeights := by
  unfold anchorWithin at anchored
  split at anchored
  · cases anchored
  · cases anchored
    rfl

theorem readoutWeights_of_assignInput {v : Given α} (assigned : r.assignInput v = .ok next) :
    next.readoutWeights = r.readoutWeights := by
  simp only [assignInput, Outcome.within_eq_ok_iff, Outcome.bind_eq_ok_iff,
    Outcome.pure_eq_ok_iff] at assigned
  obtain ⟨_, _, rfl⟩ := assigned
  rfl

/-- A base reservoir reads nothing. -/
theorem get_readoutWeights_ofDraws {settings : Settings α} {inputs outputs latents : Int}
    {draw : (count : Nat) → Vector α count}
    (built : ofDraws inputs outputs latents draw settings = .ok ⟨d, r⟩) (i : Fin d.outputs)
    (j : Fin d.latents) : r.readoutWeights.get i j = 0 := by
  unfold ofDraws at built
  rw [Outcome.within_eq_ok_iff] at built
  split at built
  · cases built
  · simp only [Outcome.bind_eq_ok_iff, ofFixedPoint, Outcome.within_eq_ok_iff,
      Outcome.pure_eq_ok_iff] at built
    obtain ⟨_, _, _, _, readout, zeros, _, _, _, _, _, _, _, _, _, _, rest⟩ := built
    obtain ⟨_, _, _, _, _, assigned, _, _, _, inputSet, _, anchored, same⟩ := rest
    cases same
    rw [readoutWeights_of_anchorWithin anchored, readoutWeights_of_assignInput inputSet]
    exact get_readoutWeights_of_assign (fun _ _ => 0) (Matrix.get_zeros zeros) assigned i j

/-- A fixed-point constructor sets everything but the state. -/
theorem state_ofFixedPoint {recurrent inputWeights readoutWeights : Operand α}
    {point input : Given α} {settings : Settings α}
    (built : ofFixedPoint recurrent inputWeights readoutWeights point input settings =
      .ok ⟨d, r⟩) : r.state = Vector.replicate d.latents 0 := by
  obtain ⟨_, parts, _, same⟩ := exists_parts_of_ofFixedPoint built
  cases same
  rfl

theorem state_ofDraws {settings : Settings α} {inputs outputs latents : Int}
    {draw : (count : Nat) → Vector α count}
    (built : ofDraws inputs outputs latents draw settings = .ok ⟨d, r⟩) :
    r.state = Vector.replicate d.latents 0 := by
  unfold ofDraws at built
  rw [Outcome.within_eq_ok_iff] at built
  split at built
  · cases built
  · simp only [Outcome.bind_eq_ok_iff] at built
    obtain ⟨_, _, _, _, _, _, placed⟩ := built
    exact state_ofFixedPoint placed

end Reservoir

end Readout

namespace Command.Request

variable (request : Request Float)

def numbers : List Float :=
  [request.settings.tolerance, request.settings.timescale, request.settings.gamma]

def NumbersAccepted : Prop :=
  ∀ number ∈ request.numbers, Scalar.finite number = true ∧ Scalar.lt 0 number = true

/-- A request for which nothing is built: its profile is unknown, one of its numbers is not positive
and finite, or one of its dimensions is negative. -/
def Refused : Prop :=
  request.profile ∉ ["", "cpu", "mem"] ∨ ¬request.NumbersAccepted ∨
    request.inputs < 0 ∨ request.outputs < 0 ∨ request.latents < 0

/-- The matrices of a probe, the identity matrix and the selector, have fewer cells than a word can
count. -/
def ProbeFits : Prop :=
  request.probe = true → request.latents.toNat * request.latents.toNat < wordLimit ∧
    request.outputs.toNat * request.latents.toNat < wordLimit

def dims : Dims :=
  ⟨request.inputs.toNat, request.outputs.toNat, request.latents.toNat⟩

/-- The matrices that a request asks for have fewer cells than a word can count: all weights, and
the states and readouts of its simulation. -/
def Fits : Prop :=
  request.dims.Recordable request.simulate.toNat

structure Built (r : Reservoir Float request.dims) : Prop where
  settings_eq : r.settings = request.settings
  atRest : r.AtRest
  /-- Without draws nothing moves in the first step. -/
  quiet : request.random = false → r.Quiet

variable {request}

theorem Fits.probe (fits : request.Fits) : request.ProbeFits :=
  fun _ => ⟨fits.recurrent, fits.readoutWeights⟩

theorem not_refused_iff : ¬request.Refused ↔
    request.profile ∈ ["", "cpu", "mem"] ∧ request.NumbersAccepted ∧
      0 ≤ request.inputs ∧ 0 ≤ request.outputs ∧ 0 ≤ request.latents := by
  simp only [Refused, not_or, not_not, not_lt]

theorem badNumber?_eq_none_iff : request.badNumber? = none ↔ request.NumbersAccepted := by
  have accepted (number : Float) :
      ¬(!Scalar.finite number || Scalar.le number 0) = true ↔
        Scalar.finite number = true ∧ Scalar.lt 0 number = true := by
    rw [Bool.or_eq_true, not_or, Bool.not_eq_true', Bool.not_eq_false]
    refine and_congr_right fun finite => ⟨fun above => ?_, fun above atMost => ?_⟩
    · exact Scalar.lt_of_not_le (Scalar.isNaN_of_finite finite)
        (Scalar.isNaN_of_finite MeasuredScalar.finite_zero) above
    · exact (OrderedScalar.lt_iff.mp above).2 atMost
  unfold badNumber? NumbersAccepted numbers
  simp only [Option.map_eq_none_iff, List.find?_eq_none, List.forall_mem_cons,
    List.not_mem_nil, false_implies, implies_true]
  exact and_congr (accepted _) (and_congr (accepted _) (and_congr (accepted _) Iff.rfl))

/-- Numbers that the command line lets through are accepted as settings, and are those settings. -/
theorem resolve_numbers (accepted : request.NumbersAccepted) :
    Settings.resolve [⟨.tolerance, request.settings.tolerance⟩,
      ⟨.timescale, request.settings.timescale⟩, ⟨.gamma, request.settings.gamma⟩] =
        .ok request.settings := by
  have positive (number : Float) (isNumber : number ∈ request.numbers) :
      Scalar.positiveFinite number = true := by
    obtain ⟨finite, above⟩ := accepted number isNumber
    unfold Scalar.finite at finite
    rw [Bool.and_eq_true] at finite
    exact Bool.and_eq_true_iff.mpr ⟨above, finite.2⟩
  have none : ([⟨.tolerance, request.settings.tolerance⟩,
      ⟨.timescale, request.settings.timescale⟩, ⟨.gamma, request.settings.gamma⟩] :
        List (Setting Float)).find? (fun setting => !Scalar.positiveFinite setting.value) =
          none := by
    rw [List.find?_eq_none]
    intro setting isSetting
    have isNumber : setting.value ∈ request.numbers :=
      List.mem_map_of_mem (f := Setting.value) isSetting
    simp [positive _ isNumber]
  unfold Settings.resolve
  rw [none]
  rfl

variable {draw : Int → (count : Nat) → Vector Float count}

variable (draw) in
/-- A refused request fails to build, and never for its probe. -/
theorem build_of_refused (refused : request.Refused) :
    ∃ failure, request.build draw = .error failure ∧ failure.exitCode = 2 ∧
      ∀ error, failure ≠ .probing error := by
  unfold build
  by_cases profile : request.profile ≠ "" ∧ request.profile ≠ "cpu" ∧ request.profile ≠ "mem"
  · rw [if_pos profile]
    exact ⟨_, rfl, rfl, nofun⟩
  · rw [if_neg profile]
    cases bad : request.badNumber? with
    | some failure =>
        unfold badNumber? at bad
        obtain ⟨⟨knob, value⟩, _, rfl⟩ := Option.map_eq_some_iff.mp bad
        exact ⟨_, rfl, rfl, nofun⟩
    | none =>
        have accepted := badNumber?_eq_none_iff.mp bad
        have negative : request.inputs < 0 ∨ request.outputs < 0 ∨ request.latents < 0 := by
          rcases refused with unknown | notAccepted | negative
          · exact absurd (by simpa [or_iff_not_imp_left] using profile) unknown
          · exact absurd accepted notAccepted
          · exact negative
        have noDims : Dims.ofInts? request.inputs request.outputs request.latents = none :=
          if_pos negative
        have fails : ∃ error, request.base draw = .error error := by
          unfold base
          split
          · unfold Reservoir.ofDraws
            rw [noDims]
            exact ⟨_, rfl⟩
          · unfold Reservoir.create
            rw [noDims]
            exact ⟨_, rfl⟩
        obtain ⟨error, failed⟩ := fails
        rw [failed]
        exact ⟨_, rfl, rfl, nofun⟩

/-- The reservoir before the readout is chosen, of a request that is not refused. -/
theorem base_eq_ok (fits : request.Fits) (notRefused : ¬request.Refused)
    (uniform : ∀ seed count, ∀ u ∈ draw seed count, Draws.IsUniform u) :
    ∃ r : Reservoir Float request.dims, request.base draw = .ok ⟨request.dims, r⟩ ∧
      r.settings = request.settings ∧ r.AtRest ∧ (request.random = false → r.Quiet) := by
  obtain ⟨_, accepted, inputs, outputs, latents⟩ := not_refused_iff.mp notRefused
  have positive : Scalar.lt 0 request.settings.tolerance := (accepted _ (List.mem_cons_self ..)).2
  have first : request.inputs = request.dims.inputs := (Int.toNat_of_nonneg inputs).symm
  have second : request.outputs = request.dims.outputs := (Int.toNat_of_nonneg outputs).symm
  have third : request.latents = request.dims.latents := (Int.toNat_of_nonneg latents).symm
  unfold base
  rw [first, second, third]
  cases random : request.random with
  | true =>
      obtain ⟨r, built, settings, -, atRest⟩ := Reservoir.exists_ofDraws (d := request.dims)
        positive fits.inputWeights (draw request.seed) (uniform request.seed _)
      exact ⟨r, built, settings, atRest, nofun⟩
  | false =>
      exact ⟨_, Reservoir.create_natCast request.dims request.settings, rfl,
        Reservoir.atRest_blank positive _, fun _ => Reservoir.quiet_blank positive _⟩

/-- The selector of a request that is not refused. -/
theorem selector_eq_ok (fits : request.ProbeFits) (probe : request.probe = true)
    (notRefused : ¬request.Refused) :
    ∃ sheet : Sheet Float request.outputs.toNat request.latents.toNat,
      Matrix.selector request.outputs request.latents = .ok ⟨_, _, sheet⟩ ∧
        AllFinite sheet.values ∧ ∀ i j, sheet.get i j = Matrix.selectorCell i j := by
  obtain ⟨_, _, _, outputs, latents⟩ := not_refused_iff.mp notRefused
  obtain ⟨square, shape⟩ := fits probe
  obtain ⟨sheet, made, finite, cells⟩ := Matrix.selector_eq_ok finite_one square shape
  rw [Int.toNat_of_nonneg outputs, Int.toNat_of_nonneg latents] at made
  exact ⟨sheet, made, finite, cells⟩

/-- The selector of a request that is not refused is accepted as its readout. -/
theorem withProbe_eq_ok (fits : request.ProbeFits) (probe : request.probe = true)
    (notRefused : ¬request.Refused) (r : Reservoir Float request.dims) :
    ∃ weights, request.withProbe r = .ok { r with readoutWeights := weights } := by
  obtain ⟨sheet, made, finite, _⟩ := selector_eq_ok fits probe notRefused
  refine ⟨sheet, ?_⟩
  unfold withProbe Reservoir.assignReadoutWeights
  rw [made, Outcome.ok_bind]
  exact congrArg (Outcome.within _) (congrArg (· >>= _) (Operand.toSheet_stored finite))

theorem build_eq_ok (fits : request.Fits) (notRefused : ¬request.Refused)
    (uniform : ∀ seed count, ∀ u ∈ draw seed count, Draws.IsUniform u) :
    ∃ r : Reservoir Float request.dims,
      request.build draw = .ok ⟨request.dims, r⟩ ∧ request.Built r := by
  obtain ⟨profile, accepted, _⟩ := not_refused_iff.mp notRefused
  have known : ¬(request.profile ≠ "" ∧ request.profile ≠ "cpu" ∧ request.profile ≠ "mem") := by
    simpa [or_iff_not_imp_left] using profile
  obtain ⟨r, based, settings, atRest, quiet⟩ := base_eq_ok fits notRefused uniform
  unfold build
  rw [if_neg known, badNumber?_eq_none_iff.mpr accepted, based]
  dsimp only
  cases probe : request.probe with
  | false => exact ⟨r, rfl, settings, atRest, quiet⟩
  | true =>
      obtain ⟨weights, probed⟩ := withProbe_eq_ok fits.probe probe notRefused r
      rw [probed]
      exact ⟨_, rfl, settings, { atRest with }, quiet⟩

/-- What is built is the base, with its readout replaced when there is a probe. -/
theorem base_of_build {α : Type} [Scalar α] {request : Request α}
    {draw : Int → (count : Nat) → Vector α count} {built : AnyReservoir α}
    (build : request.build draw = .ok built) :
    ∃ (d : Dims) (r : Reservoir α d), request.base draw = .ok ⟨d, r⟩ ∧
      ((request.probe = false ∧ built = ⟨d, r⟩) ∨ (request.probe = true ∧
        ∃ probed, request.withProbe r = .ok probed ∧ built = ⟨d, probed⟩)) := by
  unfold Request.build at build
  split at build
  · cases build
  · split at build
    · cases build
    · split at build
      · cases build
      · rename_i d r base
        refine ⟨d, r, base, ?_⟩
        split at build
        · rename_i probe
          split at build
          · cases build
          · rename_i probed withProbe
            cases build
            exact .inr ⟨probe, probed, withProbe, rfl⟩
        · rename_i noProbe
          cases build
          exact .inl ⟨Bool.eq_false_iff.mpr noProbe, rfl⟩

section Parts

variable {d : Dims} {r : Reservoir Float d}

/-! ### The base -/

theorem get_readoutWeights_of_base (based : request.base draw = .ok ⟨d, r⟩) (i : Fin d.outputs)
    (j : Fin d.latents) : r.readoutWeights.get i j = 0 := by
  unfold base at based
  split at based
  · exact Reservoir.get_readoutWeights_ofDraws based i j
  · have blank : r = Reservoir.blank d request.settings := eq_blank_of_create based
    rw [blank]
    exact Sheet.get_zero i j

theorem state_of_base (based : request.base draw = .ok ⟨d, r⟩) :
    r.state = Vector.replicate d.latents 0 := by
  unfold base at based
  split at based
  · exact Reservoir.state_ofDraws based
  · exact congrArg Reservoir.state (eq_blank_of_create based)

theorem wellFormed_of_base (based : request.base draw = .ok ⟨d, r⟩) :
    r.WellFormed request.settings := by
  unfold base at based
  split at based
  · exact .origin (Constructed.ofDraws _ _ _ _ based).origin
  · exact .origin (Constructed.create _ _ _ based).origin

/-! ### The whole -/

/-- What is built reads nothing without a probe, and the leading latents with one, whatever was
drawn. -/
theorem get_readoutWeights_of_build (built : request.build draw = .ok ⟨d, r⟩) :
    (request.probe = false → ∀ i j, r.readoutWeights.get i j = 0) ∧
      (request.probe = true → request.ProbeFits →
        ∀ i j, r.readoutWeights.get i j = Matrix.selectorCell i j) := by
  have notRefused : ¬request.Refused := by
    intro refused
    obtain ⟨failure, failed, _⟩ := build_of_refused draw refused
    rw [failed] at built
    cases built
  obtain ⟨d, based, base, ⟨noProbe, same⟩ | ⟨probe, probed, withProbe, same⟩⟩ := base_of_build built
  · cases same
    exact ⟨fun _ => get_readoutWeights_of_base base,
      fun probe => absurd (noProbe.symm.trans probe) Bool.false_ne_true⟩
  · cases same
    refine ⟨fun noProbe => absurd (noProbe.symm.trans probe) Bool.false_ne_true, fun _ fits => ?_⟩
    obtain ⟨sheet, made, _, cells⟩ := selector_eq_ok fits probe notRefused
    unfold Request.withProbe at withProbe
    rw [made, Outcome.ok_bind] at withProbe
    exact Reservoir.get_readoutWeights_of_assign Matrix.selectorCell cells withProbe

theorem state_of_build (built : request.build draw = .ok ⟨d, r⟩) :
    r.state = Vector.replicate d.latents 0 ∧ AllFinite r.readoutWeights.values := by
  obtain ⟨d, based, base, ⟨_, same⟩ | ⟨_, probed, withProbe, same⟩⟩ := base_of_build built
  · cases same
    exact ⟨state_of_base base, (wellFormed_of_base base).readoutWeights_finite⟩
  · cases same
    simp only [Request.withProbe, Outcome.bind_eq_ok_iff] at withProbe
    obtain ⟨_, _, assigned⟩ := withProbe
    have starts := state_of_base base
    have finite := ((wellFormed_of_base base).edit
      (Reservoir.edit_of_assignReadoutWeights assigned)).readoutWeights_finite
    simp only [Reservoir.assignReadoutWeights, Outcome.within_eq_ok_iff, Outcome.bind_eq_ok_iff,
      Outcome.pure_eq_ok_iff] at assigned
    obtain ⟨_, _, rfl⟩ := assigned
    exact ⟨starts, finite⟩

end Parts

end Command.Request

end EchoState
