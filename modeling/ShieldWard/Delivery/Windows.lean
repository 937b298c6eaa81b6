import ShieldWard.Control.Platform
import ShieldWard.Edge.RateLimit
import Mathlib.Tactic.FieldSimp
import Mathlib.Tactic.LinearCombination
import Mathlib.Tactic.Linarith
import Mathlib.Tactic.Positivity

/-!
# Windows on both sides

A rate-limit window is read twice: `policy.Validate` accepts what `time.ParseDuration` reads as a
positive duration, and the edge reads the same text by `parseDurationMilliseconds`. Both read a
sequence of parts. They differ in the sign, which the edge does not know, and in the parts that
are no whole number of nanoseconds, which Go rounds down.
-/

namespace ShieldWard.Delivery

open Control (unitNanoseconds sumDuration parseDuration)
open Edge (isDigit digitsValue amountValue scanAmount scanUnit sumParts parseDurationMilliseconds)

/-! ## Parts -/

/-- A part of a duration: the digits before and after its point, and its unit in nanoseconds. -/
structure DurationPart where
  whole : List Char
  fraction : List Char
  unit : ℕ

namespace DurationPart

/-- What Go adds for the part. -/
def nanoseconds (part : DurationPart) : ℕ :=
  digitsValue part.whole * part.unit +
    digitsValue part.fraction * part.unit / 10 ^ part.fraction.length

/-- What the edge adds for the part. -/
def milliseconds (part : DurationPart) : Ecma.Number :=
  amountValue part.whole part.fraction * (part.unit / 1000000)

/-- The part is a whole number of nanoseconds. -/
def IsWhole (part : DurationPart) : Prop :=
  10 ^ part.fraction.length ∣ digitsValue part.fraction * part.unit

instance (part : DurationPart) : Decidable part.IsWhole :=
  inferInstanceAs (Decidable (_ ∣ _))

/-- Rounding a part down to nanoseconds changes it exactly when it is no whole number of them. -/
theorem nanoseconds_le (part : DurationPart) :
    (part.nanoseconds : Ecma.Number) / 1000000 ≤ part.milliseconds ∧
      ((part.nanoseconds : Ecma.Number) / 1000000 = part.milliseconds ↔ part.IsWhole) := by
  obtain ⟨whole, fraction, unit⟩ := part
  unfold nanoseconds milliseconds IsWhole amountValue
  dsimp only
  have hpositive : (0 : Ecma.Number) < 10 ^ fraction.length := by positivity
  -- the fraction in nanoseconds is its quotient and a rest
  generalize hvalue : digitsValue fraction * unit = value
  have hdivision := Nat.div_add_mod value (10 ^ fraction.length)
  have hcast : (digitsValue fraction : Ecma.Number) * unit =
      10 ^ fraction.length * (value / 10 ^ fraction.length : ℕ) +
        (value % 10 ^ fraction.length : ℕ) := by
    rw [← Nat.cast_mul, hvalue]
    exact_mod_cast hdivision.symm
  have hdifference : (digitsValue whole + digitsValue fraction / 10 ^ fraction.length :
        Ecma.Number) * (unit / 1000000) -
      ((digitsValue whole * unit + value / 10 ^ fraction.length : ℕ) : Ecma.Number) / 1000000 =
      (value % 10 ^ fraction.length : ℕ) / (10 ^ fraction.length * 1000000) := by
    push_cast
    field_simp
    linear_combination hcast
  have hrest : (0 : Ecma.Number) ≤
      (value % 10 ^ fraction.length : ℕ) / (10 ^ fraction.length * 1000000) := by positivity
  refine ⟨by linarith only [hdifference, hrest], ?_⟩
  rw [Nat.dvd_iff_mod_eq_zero, eq_comm, ← sub_eq_zero, hdifference, div_eq_zero_iff]
  constructor
  · rintro (hzero | hzero)
    · exact_mod_cast hzero
    · exact absurd hzero (by positivity)
  · intro hzero
    left
    rw [hzero, Nat.cast_zero]

end DurationPart

/-- The part that Go reads first, and what follows it. -/
def readPart (text : List Char) : Option (DurationPart × List Char) :=
  let whole := text.takeWhile (·.isDigit)
  let afterWhole := text.dropWhile (·.isDigit)
  let hasPoint := afterWhole.head? = some '.'
  let fraction := if hasPoint then afterWhole.tail.takeWhile (·.isDigit) else []
  let rest := if hasPoint then afterWhole.tail.dropWhile (·.isDigit) else afterWhole
  let isUnit := fun c : Char => !(c.isDigit || c = '.')
  if whole = [] ∧ fraction = [] then none
  else
    (unitNanoseconds (rest.takeWhile isUnit)).map fun unit =>
      (⟨whole, fraction, unit⟩, rest.dropWhile isUnit)

/-- The parts of a text without a sign, up to the first that is none. -/
def readParts : ℕ → List Char → List DurationPart
  | 0, _ => []
  | fuel + 1, text =>
    match readPart text with
    | none => []
    | some (part, rest) => part :: readParts fuel rest

/-- Every part of the text is a whole number of nanoseconds. -/
def WholeNanoseconds (text : String) : Prop :=
  ∀ part ∈ readParts text.toList.length text.toList, part.IsWhole

instance (text : String) : Decidable (WholeNanoseconds text) :=
  inferInstanceAs (Decidable (∀ _ ∈ _, _))

/-- Go's loop reads a part and goes on. -/
theorem sumDuration_succ (fuel total : ℕ) (text : List Char) (hne : text ≠ []) :
    sumDuration (fuel + 1) total text =
      (readPart text).bind fun (part, rest) =>
        if 2 ^ 63 < part.nanoseconds ∨ 2 ^ 63 < total + part.nanoseconds then none
        else sumDuration fuel (total + part.nanoseconds) rest := by
  cases text with
  | nil => exact absurd rfl hne
  | cons c cs =>
    rw [sumDuration, readPart]
    · generalize c :: cs = text
      dsimp only
      generalize (if (text.dropWhile (·.isDigit)).head? = some '.' then _ else []) = fraction
      generalize (if (text.dropWhile (·.isDigit)).head? = some '.' then _ else _) = rest
      by_cases hnone : text.takeWhile (·.isDigit) = [] ∧ fraction = []
      · rw [if_pos hnone, if_pos hnone]
        rfl
      · rw [if_neg hnone, if_neg hnone]
        cases unitNanoseconds (rest.takeWhile fun c => !(c.isDigit || c = '.')) with
        | none => rfl
        | some unit => rfl
    · exact hne

/-! ## The edge reads the same parts -/

theorem isDigit_eq : isDigit = Char.isDigit := by
  funext c
  rfl

/-- The units and their factors are those of Go. -/
theorem scanUnit_eq {unit : ℕ} {text rest : List Char} (h : unitNanoseconds text = some unit)
    (hrest : ∀ c ∈ rest.head?, c.isDigit = true ∨ c = '.') :
    scanUnit (text ++ rest) = some ((unit : Ecma.Number) / 1000000, rest) := by
  unfold unitNanoseconds at h
  have ⟨before, after, htable, _⟩ := List.lookup_eq_some_iff.mp h
  have hmem := List.mem_append_right before (List.mem_cons_self (a := (String.ofList text, unit))
    (l := after))
  rw [← htable] at hmem
  simp only [List.mem_cons, List.not_mem_nil, or_false, Prod.mk.injEq] at hmem
  have htext : ∀ name : String, String.ofList text = name → text = name.toList := by
    intro name heq
    rw [← heq, String.toList_ofList]
  rcases hmem with ⟨hname, rfl⟩ | ⟨hname, rfl⟩ | ⟨hname, rfl⟩ | ⟨hname, rfl⟩ | ⟨hname, rfl⟩ |
    ⟨hname, rfl⟩ | ⟨hname, rfl⟩ | ⟨hname, rfl⟩ <;> rw [htext _ hname]
  · show some ((1 / 1000000 : Ecma.Number), rest) = _
    norm_num
  · show some ((1 / 1000 : Ecma.Number), rest) = _
    norm_num
  · show some ((1 / 1000 : Ecma.Number), rest) = _
    norm_num
  · show some ((1 / 1000 : Ecma.Number), rest) = _
    norm_num
  · show some ((1 : Ecma.Number), rest) = _
    norm_num
  · show some ((1000 : Ecma.Number), rest) = _
    norm_num
  · -- the `m` of a minute is not the start of `ms`
    have hminute : scanUnit ('m' :: rest) = some (60000, rest) := by
      cases rest with
      | nil => rfl
      | cons c cs =>
        have hc : c ≠ 's' := by
          rintro rfl
          rcases hrest 's' rfl with hdigit | hpoint
          · exact absurd hdigit (by decide)
          · exact absurd hpoint (by decide)
        unfold scanUnit
        split <;> simp_all
    show scanUnit ('m' :: rest) = _
    rw [hminute]
    norm_num
  · show some ((3600000 : Ecma.Number), rest) = _
    norm_num

/-- Where the pattern for an amount ends. -/
theorem scanAmount_eq (text : List Char) {whole fraction rest : List Char}
    (hwhole : whole = text.takeWhile isDigit)
    (hfraction : fraction = if (text.dropWhile isDigit).head? = some '.' then
      (text.dropWhile isDigit).tail.takeWhile isDigit else [])
    (hrest : rest = if (text.dropWhile isDigit).head? = some '.' then
      (text.dropWhile isDigit).tail.dropWhile isDigit else text.dropWhile isDigit)
    (hsome : ¬(whole = [] ∧ fraction = [])) :
    scanAmount text = some (amountValue whole fraction, rest) := by
  unfold scanAmount
  rw [← hwhole]
  generalize text.dropWhile isDigit = afterWhole at hfraction hrest ⊢
  cases afterWhole with
  | nil =>
    rw [if_neg (by simp)] at hfraction hrest
    rw [hfraction, hrest]
    rw [hfraction] at hsome
    exact if_neg fun h => hsome ⟨h, rfl⟩
  | cons c cs =>
    by_cases hpoint : c = '.'
    · rw [hpoint, List.head?_cons, if_pos rfl, List.tail_cons] at hfraction hrest
      rw [hpoint]
      show (if whole = [] ∧ cs.takeWhile isDigit = [] then none
        else some (amountValue whole (cs.takeWhile isDigit), cs.dropWhile isDigit)) = _
      rw [← hfraction, ← hrest]
      exact if_neg hsome
    · have hnot : (c :: cs).head? ≠ some '.' := fun h => hpoint (Option.some.inj h)
      rw [if_neg hnot] at hfraction hrest
      rw [hfraction] at hsome ⊢
      rw [hrest]
      have hwhole : whole ≠ [] := fun h => hsome ⟨h, rfl⟩
      split
      · next hcons => exact absurd (List.cons.inj hcons).1 hpoint
      · exact if_neg hwhole

/-- The edge reads the part that Go reads. -/
theorem edge_readPart {text rest : List Char} {part : DurationPart}
    (h : readPart text = some (part, rest)) :
    ∃ afterAmount, scanAmount text = some (amountValue part.whole part.fraction, afterAmount) ∧
      scanUnit afterAmount = some ((part.unit : Ecma.Number) / 1000000, rest) := by
  unfold readPart at h
  rw [← isDigit_eq] at h
  dsimp only at h
  generalize hfraction : (if (text.dropWhile isDigit).head? = some '.' then _ else []) =
    fraction at h
  generalize hrest : (if (text.dropWhile isDigit).head? = some '.' then _ else _) =
    afterAmount at h
  split at h
  · cases h
  · next hsome =>
    obtain ⟨unit, hunit, heq⟩ := Option.map_eq_some_iff.mp h
    obtain ⟨hpart, hafter⟩ := Prod.mk.inj heq
    rw [← hpart, ← hafter]
    refine ⟨afterAmount, scanAmount_eq text rfl hfraction.symm hrest.symm hsome, ?_⟩
    have hrest : ∀ c ∈ (afterAmount.dropWhile fun c => !(isDigit c || c = '.')).head?,
        c.isDigit = true ∨ c = '.' := by
      -- what follows a unit is a digit or a point
      intro c hc
      have hstop := List.head?_dropWhile_not (fun c => !(isDigit c || c = '.')) afterAmount
      rw [Option.mem_def.mp hc] at hstop
      simp only [Bool.not_eq_false', Bool.or_eq_true, decide_eq_true_eq] at hstop
      exact hstop
    have hscan := scanUnit_eq hunit hrest
    rwa [List.takeWhile_append_dropWhile] at hscan

/-! ## Whole windows -/

/-- What the parts add up to on both sides. -/
theorem sums_of_sumDuration {fuel total : ℕ} {text : List Char} {nanoseconds : ℕ}
    (h : sumDuration fuel total text = some nanoseconds) (totalMs : Ecma.Number) :
    nanoseconds = total + ((readParts fuel text).map (·.nanoseconds)).sum ∧
      sumParts fuel totalMs text =
        some (totalMs + ((readParts fuel text).map (·.milliseconds)).sum) := by
  induction fuel generalizing total text totalMs with
  | zero =>
    cases text with
    | nil => exact ⟨(Option.some.inj h).symm, by simp [sumParts, readParts]⟩
    | cons c cs => cases h
  | succ fuel ih =>
    by_cases hnil : text = []
    · rw [hnil] at h ⊢
      exact ⟨(Option.some.inj h).symm, by simp [sumParts, readParts, readPart]⟩
    · rw [sumDuration_succ _ _ _ hnil] at h
      obtain ⟨⟨part, rest⟩, hread, hnext⟩ := Option.bind_eq_some_iff.mp h
      have ⟨afterAmount, hamount, hunit⟩ := edge_readPart hread
      have hparts : readParts (fuel + 1) text = part :: readParts fuel rest := by
        rw [readParts, hread]
      dsimp only at hnext
      split at hnext
      · cases hnext
      · have ⟨hsum, hedge⟩ := ih hnext (totalMs + part.milliseconds)
        rw [hparts, List.map_cons, List.sum_cons, List.map_cons, List.sum_cons]
        refine ⟨by omega, ?_⟩
        rw [← add_assoc, ← hedge]
        cases text with
        | nil => exact absurd rfl hnil
        | cons c cs =>
          rw [sumParts, hamount]
          · simp only [Option.bind_eq_bind, Option.bind_some, hunit]
            rfl
          · exact hnil

/-- Rounding parts down changes their sum exactly when one of them is no whole number of
nanoseconds. -/
theorem sum_nanoseconds (parts : List DurationPart) :
    (((parts.map (·.nanoseconds)).sum : ℕ) : Ecma.Number) / 1000000 ≤
        (parts.map (·.milliseconds)).sum ∧
      ((((parts.map (·.nanoseconds)).sum : ℕ) : Ecma.Number) / 1000000 =
          (parts.map (·.milliseconds)).sum ↔ ∀ part ∈ parts, part.IsWhole) := by
  induction parts with
  | nil => simp
  | cons part parts ih =>
    have ⟨hle, hiff⟩ := part.nanoseconds_le
    have ⟨hrestle, hrestiff⟩ := ih
    rw [List.map_cons, List.sum_cons, List.map_cons, List.sum_cons, Nat.cast_add, add_div,
      List.forall_mem_cons, ← hiff, ← hrestiff]
    refine ⟨add_le_add hle hrestle, fun h => ?_, fun h => ?_⟩
    · exact ⟨by linarith only [h, hle, hrestle], by linarith only [h, hle, hrestle]⟩
    · rw [h.1, h.2]

/-- A positive duration has been read from a text without a minus, and its parts add up to it. -/
theorem parseDuration_pos {text : String} {duration : ℤ} (h : parseDuration text = some duration)
    (hpositive : 0 < duration) :
    text.toList.head? = some '+' ∨
      ∃ nanoseconds : ℕ, duration = nanoseconds ∧ nanoseconds < 2 ^ 63 ∧ text ≠ "" ∧
        sumDuration text.toList.length 0 text.toList = some nanoseconds := by
  unfold parseDuration at h
  dsimp only at h
  split at h
  · obtain ⟨nanoseconds, hunsigned, rfl⟩ := Option.map_eq_some_iff.mp h
    obtain ⟨magnitude, _, hcast⟩ := Option.bind_eq_some_iff.mp hunsigned
    have hnonnegative : (magnitude : ℤ) = nanoseconds := Option.some.inj hcast
    omega
  · next hplus =>
    rw [hplus]
    exact .inl rfl
  · right
    obtain ⟨nanoseconds, hunsigned, hbound⟩ := Option.bind_eq_some_iff.mp h
    split at hbound
    · cases hbound
    · next hsmall =>
      have hduration := Option.some.inj hbound
      refine ⟨nanoseconds, hduration.symm, not_le.mp hsmall, ?_⟩
      split at hunsigned
      · -- the text `0` is no positive duration
        rw [← Option.some.inj hunsigned] at hduration
        exact absurd hduration (ne_of_lt hpositive)
      · split at hunsigned
        · cases hunsigned
        · next hne =>
          refine ⟨fun hempty => hne ?_, hunsigned⟩
          rw [hempty]
          rfl

/-- The edge does not read a text with a plus. -/
theorem parseDurationMilliseconds_plus {text : String} (h : text.toList.head? = some '+') :
    parseDurationMilliseconds text =
      .error ⟨"rate-limit window must be a positive duration"⟩ := by
  have hne : text ≠ "" := by
    rintro rfl
    cases h
  unfold parseDurationMilliseconds
  rw [if_neg hne]
  cases hlist : text.toList with
  | nil =>
    rw [hlist] at h
    cases h
  | cons c cs =>
    rw [hlist] at h
    rw [Option.some.inj h]
    rfl

/-- For every window that the control plane accepts, the edge enforces that duration exactly when
the window has no plus and each of its parts is a whole number of nanoseconds. -/
theorem window_agrees_iff {text : String} {duration : ℤ}
    (h : parseDuration text = some duration) (hpositive : 0 < duration) :
    parseDurationMilliseconds text = .ok ((duration : Ecma.Number) / 1000000) ↔
      text.toList.head? ≠ some '+' ∧ WholeNanoseconds text := by
  rcases parseDuration_pos h hpositive with hplus | ⟨nanoseconds, rfl, hbound, hne, hsum⟩
  · rw [parseDurationMilliseconds_plus hplus]
    exact ⟨fun hok => (by cases hok), fun hnone => absurd hplus hnone.1⟩
  · have hplus : text.toList.head? ≠ some '+' := by
      intro hplus
      -- a plus is no part
      cases hlist : text.toList with
      | nil =>
        rw [hlist] at hplus
        cases hplus
      | cons c cs =>
        rw [hlist] at hplus hsum
        rw [Option.some.inj hplus] at hsum
        cases hsum
    have ⟨htotal, hedge⟩ := sums_of_sumDuration hsum 0
    rw [zero_add] at htotal hedge
    have ⟨hle, hiff⟩ := sum_nanoseconds (readParts text.toList.length text.toList)
    rw [← htotal] at hle hiff
    have hms : 0 < (nanoseconds : Ecma.Number) / 1000000 := by
      have hnat : 0 < nanoseconds := by omega
      positivity
    unfold parseDurationMilliseconds
    rw [if_neg hne, hedge]
    dsimp only
    rw [Int.cast_natCast]
    constructor
    · intro hok
      split at hok
      · cases hok
      · exact ⟨hplus, hiff.mp (Except.ok.inj hok).symm⟩
    · rintro ⟨_, hwhole⟩
      rw [← hiff.mpr hwhole, if_neg]
      rintro (hzero | hlarge)
      · linarith only [hms, hzero]
      · have hcast : (nanoseconds : Ecma.Number) < 9223372036854775808 := by exact_mod_cast hbound
        unfold Ecma.maxSafeInteger at hlarge
        norm_num at hlarge
        linarith only [hlarge, hcast]

/-- The control plane accepts a window with a plus and one below a nanosecond; the edge does not
read the first and makes another duration of the second. -/
theorem windows_differ :
    parseDuration "+5s" = some 5000000000 ∧
      parseDurationMilliseconds "+5s" =
        .error ⟨"rate-limit window must be a positive duration"⟩ ∧
      parseDuration "1.5ns" = some 1 ∧
      parseDurationMilliseconds "1.5ns" ≠ .ok ((1 : ℤ) / 1000000) := by
  refine ⟨by decide +kernel, by decide +kernel, by decide +kernel, ?_⟩
  decide +kernel

theorem window_agrees_hour :
    parseDurationMilliseconds "1h30m.5s" =
      .ok (((5400500000000 : ℤ) : Ecma.Number) / 1000000) := by
  have h : parseDuration "1h30m.5s" = some 5400500000000 := by decide +kernel
  exact (window_agrees_iff h (by decide)).mpr (by decide +kernel)

end ShieldWard.Delivery
