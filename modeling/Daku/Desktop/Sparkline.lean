import Daku.Base.Int64
import Daku.Wire.Message
import Mathlib.Data.List.Infix

/-!
# Sparklines

The values of a trend with its gaps, `src/dashboard_state.rs:329–359`. A gap is decided by the
point before, whether it has a value or not: the gaps are those of the values exactly where one
step between neighbours accounts for each.
-/

namespace Daku.Desktop

open Daku.Base
open Daku.Wire (SamplePoint)

/-- `SPARKLINE_GAP_THRESHOLD_SECS` (`dashboard_state.rs:335`). -/
def sparklineGapThresholdSecs : Int := 600

/-- One turn of the loop (`dashboard_state.rs:346–357`). -/
def sparklineStep : List (Option Rat) × Option Int → SamplePoint → List (Option Rat) × Option Int
  | (out, prevAt), point =>
    let out :=
      if (prevAt.any fun prev ↦ sparklineGapThresholdSecs < satSub point.observedAt prev) &&
          !out.isEmpty then out ++ [none]
      else out
    let out :=
      match point.valueReal with
      | some value => out ++ [some value]
      | none => out
    (out, some point.observedAt)

/-- A stable sort by time. -/
def inTimeOrder (points : List SamplePoint) : List SamplePoint :=
  points.mergeSort fun a b ↦ a.observedAt ≤ b.observedAt

/-- `sparkline_with_gaps` (`dashboard_state.rs:341–359`). -/
def sparklineWithGaps (points : List SamplePoint) : List (Option Rat) :=
  ((inTimeOrder points).foldl sparklineStep ([], none)).1

/-- Two times are too far apart to be connected. -/
def IsGap (earlier later : Int) : Prop := sparklineGapThresholdSecs < later - earlier

instance (earlier later : Int) : Decidable (IsGap earlier later) :=
  inferInstanceAs (Decidable (_ < _))

/-- The points with a value, with their times. -/
def valued (points : List SamplePoint) : List (Int × Rat) :=
  points.filterMap fun point ↦ point.valueReal.map fun value ↦ (point.observedAt, value)

/-- The values, with one gap between each two neighbours that are too far apart. -/
def valuesWithGaps : List (Int × Rat) → List (Option Rat)
  | [] => []
  | (time, value) :: rest =>
    some value ::
      ((if rest.head?.any fun next ↦ IsGap time next.1 then [none] else []) ++ valuesWithGaps rest)

/-- How many neighbours are too far apart. -/
def wideSteps : List SamplePoint → ℕ
  | a :: b :: rest =>
    (if IsGap a.observedAt b.observedAt then 1 else 0) + wideSteps (b :: rest)
  | _ => 0

@[simp]
theorem wideSteps_singleton (a : SamplePoint) : wideSteps [a] = 0 := rfl

theorem wideSteps_cons_cons (a b : SamplePoint) (rest : List SamplePoint) :
    wideSteps (a :: b :: rest) =
      (if IsGap a.observedAt b.observedAt then 1 else 0) + wideSteps (b :: rest) := rfl

/-- No point has a value. -/
def Unvalued (points : List SamplePoint) : Prop := ∀ point ∈ points, point.valueReal = none

/-- Between two values that are too far apart, one step is, and none after the last value. -/
structure OneStepEach (ordered : List SamplePoint) : Prop where
  between : ∀ (a b : SamplePoint) (unvalued : List SamplePoint), a.valueReal.isSome →
    b.valueReal.isSome → Unvalued unvalued → a :: (unvalued ++ [b]) <:+: ordered →
      IsGap a.observedAt b.observedAt → wideSteps (a :: (unvalued ++ [b])) = 1
  after : ∀ (a : SamplePoint) (unvalued : List SamplePoint), a.valueReal.isSome →
    Unvalued unvalued → a :: unvalued <:+ ordered → wideSteps (a :: unvalued) = 0

section Loop

variable {a b : SamplePoint} {points rest : List SamplePoint} {out : List (Option Rat)}
  {value : Rat}

theorem isGap_iff_satSub (earlier later : Int) :
    sparklineGapThresholdSecs < satSub later earlier ↔ IsGap earlier later := by
  unfold IsGap sparklineGapThresholdSecs satSub clampI64 i64Min i64Max
  omega

theorem unvalued_cons : Unvalued (a :: points) ↔ a.valueReal = none ∧ Unvalued points :=
  List.forall_mem_cons

/-- What the loop adds once there is a value. -/
def addedAfter : Int → List SamplePoint → List (Option Rat)
  | _, [] => []
  | prev, point :: rest =>
    (if IsGap prev point.observedAt then [none] else []) ++ point.valueReal.toList.map some ++
      addedAfter point.observedAt rest

private theorem sparklineStep_some (hout : out ≠ []) (prev : Int) :
    sparklineStep (out, some prev) a =
      (out ++ ((if IsGap prev a.observedAt then [none] else []) ++ a.valueReal.toList.map some),
        some a.observedAt) := by
  have hempty : out.isEmpty = false := by simpa using hout
  rw [sparklineStep, Option.any_some, hempty]
  simp only [isGap_iff_satSub, Bool.not_false, Bool.and_true, decide_eq_true_eq]
  by_cases hgap : IsGap prev a.observedAt
  · cases a.valueReal <;> simp [hgap]
  · cases a.valueReal <;> simp [hgap]

theorem foldl_sparklineStep (hout : out ≠ []) (prev : Int) :
    (points.foldl sparklineStep (out, some prev)).1 = out ++ addedAfter prev points := by
  induction points generalizing out prev with
  | nil => exact (List.append_nil out).symm
  | cons point rest ih =>
    rw [List.foldl_cons, sparklineStep_some hout, ih (by simp [hout]), addedAfter,
      List.append_assoc]

/-- Points before the first value leave no trace. -/
theorem foldl_valued (points : List SamplePoint) (prev : Option Int) :
    (Unvalued points ∧ (points.foldl sparklineStep ([], prev)).1 = []) ∨
    ∃ before a rest value, points = before ++ a :: rest ∧ Unvalued before ∧
      a.valueReal = some value ∧
        (points.foldl sparklineStep ([], prev)).1 = some value :: addedAfter a.observedAt rest := by
  induction points generalizing prev with
  | nil => exact Or.inl ⟨List.forall_mem_nil _, rfl⟩
  | cons point rest ih =>
    rw [List.foldl_cons]
    cases hvalue : point.valueReal with
    | some value =>
      have hstep : sparklineStep ([], prev) point = ([some value], some point.observedAt) := by
        simp [sparklineStep, hvalue]
      refine Or.inr ⟨[], point, rest, value, rfl, List.forall_mem_nil _, hvalue, ?_⟩
      rw [hstep, foldl_sparklineStep (by simp)]
      rfl
    | none =>
      have hstep : sparklineStep ([], prev) point = ([], some point.observedAt) := by
        simp [sparklineStep, hvalue]
      rw [hstep]
      rcases ih (some point.observedAt) with ⟨hrest, hout⟩ | ⟨before, a, rest', value, hsplit,
        hbefore, ha, hout⟩
      · exact Or.inl ⟨unvalued_cons.mpr ⟨hvalue, hrest⟩, hout⟩
      · refine Or.inr ⟨point :: before, a, rest', value, ?_, ?_, ha, hout⟩
        · rw [hsplit, List.cons_append]
        · exact unvalued_cons.mpr ⟨hvalue, hbefore⟩

/-- Points without a value add one gap for each wide step. -/
theorem addedAfter_unvalued (h : Unvalued points) (a : SamplePoint) :
    addedAfter a.observedAt points = List.replicate (wideSteps (a :: points)) none := by
  induction points generalizing a with
  | nil => rfl
  | cons point rest ih =>
    obtain ⟨hpoint, hrest⟩ := unvalued_cons.mp h
    rw [addedAfter, ih hrest, hpoint, wideSteps_cons_cons, List.replicate_add]
    by_cases hgap : IsGap a.observedAt point.observedAt
    · simp [hgap]
    · simp [hgap]

/-- Up to the next value there is one gap for each wide step. -/
theorem addedAfter_between (h : Unvalued points) (hb : b.valueReal = some value)
    (a : SamplePoint) :
    addedAfter a.observedAt (points ++ b :: rest) =
      List.replicate (wideSteps (a :: (points ++ [b]))) none ++
        some value :: addedAfter b.observedAt rest := by
  induction points generalizing a with
  | nil =>
    rw [List.nil_append, List.nil_append, addedAfter, hb, wideSteps_cons_cons,
      wideSteps_singleton]
    by_cases hgap : IsGap a.observedAt b.observedAt
    · simp [hgap]
    · simp [hgap]
  | cons point points ih =>
    obtain ⟨hpoint, hpoints⟩ := unvalued_cons.mp h
    rw [List.cons_append, List.cons_append, addedAfter, ih hpoints, hpoint,
      wideSteps_cons_cons, List.replicate_add]
    by_cases hgap : IsGap a.observedAt point.observedAt
    · simp [hgap]
    · simp [hgap]

end Loop

section Stretches

variable {a b x y : SamplePoint} {points unvalued rest : List SamplePoint}

/-- A list that begins with a value is another value and what follows it, or has no other. -/
theorem valued_induction {motive : SamplePoint → List SamplePoint → Prop}
    (last : ∀ a unvalued, Unvalued unvalued → motive a unvalued)
    (next : ∀ a unvalued b rest, Unvalued unvalued → b.valueReal.isSome → motive b rest →
      motive a (unvalued ++ b :: rest)) (a : SamplePoint) (points : List SamplePoint) :
    motive a points := by
  have hsplit : ∀ points : List SamplePoint, Unvalued points ∨ ∃ unvalued b rest,
      points = unvalued ++ b :: rest ∧ Unvalued unvalued ∧ b.valueReal.isSome := by
    intro points
    rcases foldl_valued points none with ⟨h, -⟩ | ⟨unvalued, b, rest, value, hpoints, h, hb, -⟩
    · exact Or.inl h
    · exact Or.inr ⟨unvalued, b, rest, hpoints, h, by rw [hb, Option.isSome_some]⟩
  induction hlength : points.length using Nat.strong_induction_on generalizing a points with
  | _ n ih =>
    rcases hsplit points with h | ⟨unvalued, b, rest, rfl, h, hb⟩
    · exact last a points h
    · refine next a unvalued b rest h hb (ih rest.length ?_ b rest rfl)
      rw [← hlength, List.length_append, List.length_cons]
      omega

private theorem not_head_of_unvalued (hx : x.valueReal.isSome) (ha : a.valueReal = none) :
    x ≠ a := by
  rintro rfl
  rw [ha] at hx
  cases hx

theorem infix_unvalued_append (hx : x.valueReal.isSome) (h : Unvalued unvalued) :
    x :: points <:+: unvalued ++ rest ↔ x :: points <:+: rest := by
  induction unvalued with
  | nil => rfl
  | cons point unvalued ih =>
    obtain ⟨hpoint, hunvalued⟩ := unvalued_cons.mp h
    rw [List.cons_append, List.infix_cons_iff, ih hunvalued, List.cons_prefix_cons]
    exact or_iff_right fun hhead ↦ not_head_of_unvalued hx hpoint hhead.1

theorem suffix_unvalued_append (hx : x.valueReal.isSome) (h : Unvalued unvalued) :
    x :: points <:+ unvalued ++ rest ↔ x :: points <:+ rest := by
  induction unvalued with
  | nil => rfl
  | cons point unvalued ih =>
    obtain ⟨hpoint, hunvalued⟩ := unvalued_cons.mp h
    rw [List.cons_append, List.suffix_cons_iff, ih hunvalued, List.cons.injEq]
    exact or_iff_right fun hhead ↦ not_head_of_unvalued hx hpoint hhead.1

/-- The first value of a list is where it is. -/
theorem prefix_unvalued (hy : y.valueReal.isSome) (hb : b.valueReal.isSome)
    (hpoints : Unvalued points) (hunvalued : Unvalued unvalued) :
    points ++ [y] <+: unvalued ++ b :: rest ↔ points = unvalued ∧ y = b := by
  induction points generalizing unvalued with
  | nil =>
    cases unvalued with
    | nil => simp
    | cons point unvalued =>
      simpa using not_head_of_unvalued hy (unvalued_cons.mp hunvalued).1
  | cons point points ih =>
    obtain ⟨hpoint, hpoints⟩ := unvalued_cons.mp hpoints
    cases unvalued with
    | nil => simpa using fun h ↦ absurd h.symm (not_head_of_unvalued hb hpoint)
    | cons head unvalued =>
      rw [List.cons_append, List.cons_append, List.cons_prefix_cons,
        ih hpoints (unvalued_cons.mp hunvalued).2, List.cons.injEq, and_assoc]

private theorem not_infix_unvalued (hx : x.valueReal.isSome) (h : Unvalued unvalued) :
    ¬ x :: points <:+: unvalued := by
  intro hinfix
  have hmem : x ∈ unvalued := hinfix.subset List.mem_cons_self
  rw [h x hmem] at hx
  cases hx

/-- Points before the first value do not matter. -/
theorem oneStepEach_append (h : Unvalued unvalued) :
    OneStepEach (unvalued ++ rest) ↔ OneStepEach rest := by
  constructor
  · intro heach
    constructor
    · intro x y points hx hy hpoints hinfix
      exact heach.between x y points hx hy hpoints ((infix_unvalued_append hx h).mpr hinfix)
    · intro x points hx hpoints hsuffix
      exact heach.after x points hx hpoints ((suffix_unvalued_append hx h).mpr hsuffix)
  · intro heach
    constructor
    · intro x y points hx hy hpoints hinfix
      exact heach.between x y points hx hy hpoints ((infix_unvalued_append hx h).mp hinfix)
    · intro x points hx hpoints hsuffix
      exact heach.after x points hx hpoints ((suffix_unvalued_append hx h).mp hsuffix)

theorem oneStepEach_last (ha : a.valueReal.isSome) (h : Unvalued unvalued) :
    OneStepEach (a :: unvalued) ↔ wideSteps (a :: unvalued) = 0 := by
  constructor
  · intro heach
    exact heach.after a unvalued ha h List.suffix_rfl
  · intro hzero
    constructor
    · intro x y points hx hy hpoints hinfix
      rw [List.infix_cons_iff, List.cons_prefix_cons] at hinfix
      rcases hinfix with ⟨-, hprefix⟩ | hinfix
      · have hmem : y ∈ unvalued := hprefix.subset (by simp)
        rw [h y hmem] at hy
        cases hy
      · exact absurd hinfix (not_infix_unvalued hx h)
    · intro x points hx hpoints hsuffix
      rw [List.suffix_cons_iff] at hsuffix
      rcases hsuffix with heq | hsuffix
      · rwa [heq]
      · exact absurd hsuffix.isInfix (not_infix_unvalued hx h)

theorem oneStepEach_next (ha : a.valueReal.isSome) (h : Unvalued unvalued)
    (hb : b.valueReal.isSome) :
    OneStepEach (a :: (unvalued ++ b :: rest)) ↔
      (IsGap a.observedAt b.observedAt → wideSteps (a :: (unvalued ++ [b])) = 1) ∧
        OneStepEach (b :: rest) := by
  constructor
  · intro heach
    refine ⟨heach.between a b unvalued ha hb h ⟨[], rest, by simp⟩, ?_, ?_⟩
    · intro x y points hx hy hpoints hinfix
      exact heach.between x y points hx hy hpoints
        (((infix_unvalued_append hx h).mpr hinfix).trans (List.suffix_cons a _).isInfix)
    · intro x points hx hpoints hsuffix
      exact heach.after x points hx hpoints
        (((suffix_unvalued_append hx h).mpr hsuffix).trans (List.suffix_cons a _))
  · rintro ⟨hstep, hrest⟩
    constructor
    · intro x y points hx hy hpoints hinfix
      rw [List.infix_cons_iff, List.cons_prefix_cons, prefix_unvalued hy hb hpoints h,
        infix_unvalued_append hx h] at hinfix
      rcases hinfix with ⟨rfl, rfl, rfl⟩ | hinfix
      · exact hstep
      · exact hrest.between x y points hx hy hpoints hinfix
    · intro x points hx hpoints hsuffix
      rw [List.suffix_cons_iff, suffix_unvalued_append hx h] at hsuffix
      rcases hsuffix with heq | hsuffix
      · have hmem : b ∈ points := by
          rw [(List.cons.inj heq).2]
          simp
        rw [hpoints b hmem] at hb
        cases hb
      · exact hrest.after x points hx hpoints hsuffix

/-- The list is in time order. -/
def Ordered (points : List SamplePoint) : Prop :=
  points.Pairwise fun a b ↦ a.observedAt ≤ b.observedAt

theorem ordered_inTimeOrder (points : List SamplePoint) : Ordered (inTimeOrder points) := by
  have hpairwise := @List.pairwise_mergeSort _
    (fun a b : SamplePoint ↦ decide (a.observedAt ≤ b.observedAt))
    (by simpa using fun a b c ↦ le_trans) (by simpa using fun a b ↦ le_total _ _) points
  simpa [Ordered, inTimeOrder] using hpairwise

/-- Values that are close enough have no wide step between them. -/
theorem wideSteps_of_not_isGap (hordered : Ordered (a :: (points ++ [b])))
    (h : ¬ IsGap a.observedAt b.observedAt) : wideSteps (a :: (points ++ [b])) = 0 := by
  induction points generalizing a with
  | nil =>
    rw [List.nil_append, wideSteps_cons_cons, if_neg h, wideSteps_singleton]
  | cons point points ih =>
    obtain ⟨hfirst, hrest⟩ := List.pairwise_cons.mp hordered
    have ha : a.observedAt ≤ point.observedAt := hfirst point (by simp)
    have hb : point.observedAt ≤ b.observedAt := (List.pairwise_cons.mp hrest).1 b (by simp)
    rw [List.cons_append, wideSteps_cons_cons, ih hrest, if_neg]
    · unfold IsGap at h ⊢
      omega
    · unfold IsGap at h ⊢
      omega

theorem valued_unvalued (h : Unvalued unvalued) : valued unvalued = [] := by
  rw [valued, List.filterMap_eq_nil_iff]
  intro point hpoint
  rw [h point hpoint, Option.map_none]

theorem valued_append (h : Unvalued unvalued) (rest : List SamplePoint) :
    valued (unvalued ++ rest) = valued rest := by
  rw [valued, List.filterMap_append]
  exact congrArg (· ++ valued rest) (valued_unvalued h)

theorem valued_cons {value : Rat} (h : a.valueReal = some value) (rest : List SamplePoint) :
    valued (a :: rest) = (a.observedAt, value) :: valued rest := by
  rw [valued, List.filterMap_cons_some (b := (a.observedAt, value)) (by rw [h, Option.map_some])]
  rfl

private theorem gaps_eq_iff {n : ℕ} {gap : Prop} [Decidable gap] {value : Rat}
    {xs ys : List (Option Rat)} :
    List.replicate n none ++ some value :: xs =
        (if gap then [none] else []) ++ some value :: ys ↔
      n = (if gap then 1 else 0) ∧ xs = ys := by
  by_cases hgap : gap
  · rw [if_pos hgap, if_pos hgap]
    match n with
    | 0 => simp
    | 1 => simp
    | n + 2 => simp [List.replicate_succ]
  · rw [if_neg hgap, if_neg hgap]
    cases n with
    | zero => simp
    | succ n => simp [List.replicate_succ]

/-- From a value on the gaps are right exactly if one step accounts for each. -/
theorem addedAfter_eq_iff {value : Rat} (ha : a.valueReal = some value)
    (hordered : Ordered (a :: points)) :
    some value :: addedAfter a.observedAt points = valuesWithGaps (valued (a :: points)) ↔
      OneStepEach (a :: points) := by
  induction a, points using valued_induction generalizing value with
  | last a unvalued h =>
    have hsome : a.valueReal.isSome := by rw [ha, Option.isSome_some]
    rw [oneStepEach_last hsome h, addedAfter_unvalued h, valued_cons ha, valued_unvalued h,
      valuesWithGaps]
    simp [valuesWithGaps]
  | next a unvalued b rest h hb ih =>
    have hsome : a.valueReal.isSome := by rw [ha, Option.isSome_some]
    obtain ⟨next, hnext⟩ := Option.isSome_iff_exists.mp hb
    have hrest : Ordered (b :: rest) :=
      hordered.sublist ((List.sublist_append_right unvalued _).cons a)
    have hclose : ¬ IsGap a.observedAt b.observedAt →
        wideSteps (a :: (unvalued ++ [b])) = 0 := by
      apply wideSteps_of_not_isGap
      exact hordered.sublist (((List.Sublist.refl unvalued).append
        (List.singleton_sublist.mpr List.mem_cons_self)).cons_cons a)
    have hvalues : valuesWithGaps (valued (a :: (unvalued ++ b :: rest))) =
        some value :: ((if IsGap a.observedAt b.observedAt then [none] else []) ++
          valuesWithGaps (valued (b :: rest))) := by
      rw [valued_cons ha, valued_append h, valued_cons hnext, valuesWithGaps]
      simp
    have hfirst : ∃ values, valuesWithGaps (valued (b :: rest)) = some next :: values := by
      rw [valued_cons hnext, valuesWithGaps]
      exact ⟨_, rfl⟩
    obtain ⟨values, hfirst⟩ := hfirst
    rw [oneStepEach_next hsome h hb, ← ih hnext hrest, addedAfter_between h hnext, hvalues,
      hfirst, List.cons.injEq, and_iff_right rfl, gaps_eq_iff, List.cons.injEq, and_iff_right rfl]
    refine and_congr_left' ?_
    by_cases hgap : IsGap a.observedAt b.observedAt
    · simp [hgap]
    · simp [hgap, hclose hgap]

end Stretches

private theorem filterMap_addedAfter (prev : Int) (points : List SamplePoint) :
    (addedAfter prev points).filterMap id = (valued points).map Prod.snd := by
  induction points generalizing prev with
  | nil => rfl
  | cons point rest ih =>
    have hvalue : point.valueReal = none ∨ ∃ value, point.valueReal = some value := by
      cases point.valueReal <;> simp
    rw [addedAfter, List.filterMap_append, List.filterMap_append, ih]
    rcases hvalue with hnone | ⟨value, hsome⟩
    · have hvalued : valued (point :: rest) = valued rest :=
        valued_append (unvalued_cons.mpr ⟨hnone, List.forall_mem_nil _⟩) rest
      rw [hnone, hvalued]
      split <;> simp
    · rw [hsome, valued_cons hsome]
      split <;> simp

/-- Wherever the gaps are, the values are those of the points, in time order. -/
theorem filterMap_sparklineWithGaps (points : List SamplePoint) :
    (sparklineWithGaps points).filterMap id = (valued (inTimeOrder points)).map Prod.snd := by
  rw [sparklineWithGaps]
  rcases foldl_valued (inTimeOrder points) none with ⟨h, hout⟩ | ⟨before, a, rest, value, hsplit,
    hbefore, ha, hout⟩
  · rw [hout, valued_unvalued h]
    rfl
  · rw [hout, hsplit, valued_append hbefore, valued_cons ha, List.map_cons,
      ← filterMap_addedAfter a.observedAt rest]
    rfl

/-- The gaps are those between the values exactly if one step accounts for each. -/
theorem sparkline_exact_iff (points : List SamplePoint) :
    sparklineWithGaps points = valuesWithGaps (valued (inTimeOrder points)) ↔
      OneStepEach (inTimeOrder points) := by
  have hordered := ordered_inTimeOrder points
  rw [sparklineWithGaps]
  rcases foldl_valued (inTimeOrder points) none with ⟨h, hout⟩ | ⟨before, a, rest, value, hsplit,
    hbefore, ha, hout⟩
  · -- Without any value there is no gap.
    rw [hout, valued_unvalued h]
    refine iff_of_true rfl ⟨?_, ?_⟩
    · intro x y between hx hy hbetween hinfix
      exact absurd hinfix (not_infix_unvalued hx h)
    · intro x after hx hafter hsuffix
      exact absurd hsuffix.isInfix (not_infix_unvalued hx h)
  · have hsome : a.valueReal.isSome := by rw [ha, Option.isSome_some]
    rw [hout, hsplit, valued_append hbefore, oneStepEach_append hbefore]
    rw [hsplit] at hordered
    exact addedAfter_eq_iff ha (hordered.sublist (List.sublist_append_right before _))

/-- Points in time order stay where they are. -/
theorem sparklineWithGaps_of_ordered {points : List SamplePoint} (h : Ordered points) :
    sparklineWithGaps points = (points.foldl sparklineStep ([], none)).1 := by
  have hsorted : inTimeOrder points = points := by
    apply List.mergeSort_of_pairwise
    simpa [Ordered] using h
  rw [sparklineWithGaps, hsorted]

/-- A point without a value hides a gap or adds one, and a late one leaves one behind. -/
theorem sparkline_moves_gaps :
    sparklineWithGaps [⟨0, some 1⟩, ⟨400, none⟩, ⟨800, some 2⟩] = [some 1, some 2] ∧
    sparklineWithGaps [⟨0, some 1⟩, ⟨700, none⟩, ⟨1400, some 2⟩] =
      [some 1, none, none, some 2] ∧
    sparklineWithGaps [⟨0, some 1⟩, ⟨700, none⟩] = [some 1, none] ∧
    ¬ ∀ points : List SamplePoint,
      sparklineWithGaps points = valuesWithGaps (valued (inTimeOrder points)) := by
  have hlate : sparklineWithGaps [⟨0, some 1⟩, ⟨700, none⟩] = [some 1, none] := by
    rw [sparklineWithGaps_of_ordered (by simp [Ordered])]
    rfl
  refine ⟨?_, ?_, hlate, ?_⟩
  · rw [sparklineWithGaps_of_ordered (by simp [Ordered])]
    rfl
  · rw [sparklineWithGaps_of_ordered (by simp [Ordered])]
    rfl
  · intro hall
    have hsorted : inTimeOrder [⟨0, some 1⟩, ⟨700, none⟩] = [⟨0, some 1⟩, ⟨700, none⟩] :=
      List.mergeSort_of_pairwise (by simp)
    have hboth := (hall [⟨0, some 1⟩, ⟨700, none⟩]).symm.trans hlate
    rw [hsorted] at hboth
    exact absurd hboth (by decide)

end Daku.Desktop
