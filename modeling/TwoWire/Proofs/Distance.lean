import TwoWire.Time

/-! Signed distances at their limits: exact on one side of `Time.half`, and on different sides off
by `Time.limit`, so that they overflow or come out with the wrong sign (`elapsed_by_side`). -/

namespace TwoWire.Time

variable {start stop time : Nat} {n : Int}

def Fits (n : Int) : Prop := -half ≤ n ∧ n < half

theorem wrapped_eq_iff : n.bmod limit = n ↔ Fits n := by
  constructor
  · intro same
    have low := Int.le_bmod (x := n) (m := limit) (by decide)
    have high := Int.bmod_lt (x := n) (m := limit) (by decide)
    rw [same] at low high
    unfold Fits half limit UInt64.size at *
    omega
  · rintro ⟨low, high⟩
    unfold half limit UInt64.size at *
    apply Int.bmod_eq_of_le <;> omega

/-- The side of `half` that an instant is on tells how far its signed number is off. -/
theorem signed_by_side (instant : time < limit) :
    signed time = time - if time < half then 0 else (limit : Int) := by
  have limits := half_add_half
  split
  case isTrue early => rw [signed_of_lt early, Int.sub_zero]
  case isFalse late =>
    have fits : Fits (time - limit) := by
      unfold Fits
      omega
    rw [← wrapped_eq_iff.mpr fits, Int.sub_bmod_right]
    rfl

theorem elapsed_of_fits (fits : Fits (signed stop - signed start)) :
    elapsed start stop = .ok (signed stop - signed start) := by
  unfold elapsed
  exact if_pos fits

theorem elapsed_of_not_fits (beyond : ¬Fits (signed stop - signed start)) :
    elapsed start stop = .error .subtract := by
  unfold elapsed
  exact if_neg beyond

theorem fits_of_same_side (hstart : start < limit) (hstop : stop < limit)
    (same : start < half ↔ stop < half) : Fits (stop - start) := by
  have limits := half_add_half
  unfold Fits
  omega

theorem elapsed_of_same_side (hstart : start < limit) (hstop : stop < limit)
    (same : start < half ↔ stop < half) : elapsed start stop = .ok ((stop : Int) - start) := by
  have exact : signed stop - signed start = (stop : Int) - start := by
    rw [signed_by_side hstart, signed_by_side hstop]
    simp only [same]
    omega
  have fits := fits_of_same_side hstart hstop same
  rw [← exact] at fits ⊢
  exact elapsed_of_fits fits

theorem signed_sub_signed (hstart : start < limit) (hstop : stop < limit)
    (apart : ¬(start < half ↔ stop < half)) :
    start < stop ∧ signed stop - signed start = (stop : Int) - start - limit ∨
      stop < start ∧ signed stop - signed start = (stop : Int) - start + limit := by
  rw [signed_by_side hstart, signed_by_side hstop]
  by_cases early : start < half
  case pos =>
    have late : ¬stop < half := fun other => apart (iff_of_true early other)
    rw [if_pos early, if_neg late]
    omega
  case neg =>
    have before : stop < half := Classical.byContradiction fun other =>
      apart (iff_of_false early other)
    rw [if_neg early, if_pos before]
    omega

theorem elapsed_of_near (hstart : start < limit) (hstop : stop < limit)
    (apart : ¬(start < half ↔ stop < half)) (fits : Fits (stop - start)) :
    elapsed start stop = .error .subtract := by
  have limits := half_add_half
  apply elapsed_of_not_fits
  unfold Fits at fits ⊢
  rcases signed_sub_signed hstart hstop apart with ⟨-, off⟩ | ⟨-, off⟩
  · omega
  · omega

/-- A distance too long for 64 bits with a sign comes out as the other number with the same 64 bits,
on the wrong side of zero. -/
theorem elapsed_of_far (hstart : start < limit) (hstop : stop < limit)
    (beyond : ¬Fits (stop - start)) :
    elapsed start stop = .ok (((stop : Int) - start).bmod limit) ∧
      (((stop : Int) - start).bmod limit).sign = -((stop : Int) - start).sign := by
  have limits := half_add_half
  have apart : ¬(start < half ↔ stop < half) := fun same =>
    beyond (fits_of_same_side hstart hstop same)
  have fits : Fits (signed stop - signed start) := by
    unfold Fits at beyond ⊢
    rcases signed_sub_signed hstart hstop apart with ⟨ahead, off⟩ | ⟨back, off⟩
    · omega
    · omega
  have wrapped : signed stop - signed start = ((stop : Int) - start).bmod limit := by
    rw [← wrapped_eq_iff.mpr fits]
    rcases signed_sub_signed hstart hstop apart with ⟨-, off⟩ | ⟨-, off⟩
    · rw [off, Int.sub_bmod_right]
    · rw [off, Int.add_bmod_right]
  rw [← wrapped]
  refine ⟨elapsed_of_fits fits, ?_⟩
  rcases signed_sub_signed hstart hstop apart with ⟨ahead, off⟩ | ⟨back, off⟩
  case inl =>
    have below : signed stop - signed start < 0 := by omega
    have above : 0 < (stop : Int) - start := by omega
    rw [Int.sign_eq_neg_one_of_neg below, Int.sign_eq_one_of_pos above]
  case inr =>
    have above : 0 < signed stop - signed start := by omega
    have below : (stop : Int) - start < 0 := by omega
    rw [Int.sign_eq_one_of_pos above, Int.sign_eq_neg_one_of_neg below, Int.neg_neg]

/-- A distance is measured exactly between instants on the same side of `half`. Between instants on
different sides it overflows if it fits, and is told with the wrong sign if it does not. So where time
does not go back, nothing that is told is wrong of less than `half`. -/
theorem elapsed_by_side (start stop : Nat) (hstart : start < limit) (hstop : stop < limit) :
    let distance : Int := stop - start
    (elapsed start stop = .ok distance ↔ (start < half ↔ stop < half)) ∧
    (elapsed start stop = .error .subtract ↔
      ¬(start < half ↔ stop < half) ∧ Fits distance) ∧
    (¬Fits distance → elapsed start stop = .ok (distance.bmod limit) ∧
      (distance.bmod limit).sign = -distance.sign) ∧
    (start ≤ stop → ∀ interval, elapsed start stop = .ok interval →
      (interval ≠ distance ↔ half ≤ distance)) := by
  intro distance
  by_cases same : start < half ↔ stop < half
  case pos =>
    have exact := elapsed_of_same_side hstart hstop same
    have fits := fits_of_same_side hstart hstop same
    refine ⟨iff_of_true exact same, ?_, fun beyond => absurd fits beyond, ?_⟩
    · rw [exact]
      exact iff_of_false nofun fun other => other.1 same
    · intro _ interval measured
      cases exact.symm.trans measured
      exact iff_of_false (fun wrong => wrong rfl) (Int.not_le.mpr fits.2)
  case neg =>
    by_cases fits : Fits distance
    case pos =>
      have fails := elapsed_of_near hstart hstop same fits
      rw [fails]
      exact ⟨iff_of_false nofun same, iff_of_true rfl ⟨same, fits⟩,
        fun beyond => absurd fits beyond, fun _ _ => nofun⟩
    case neg =>
      obtain ⟨told, turned⟩ := elapsed_of_far hstart hstop fits
      have wrong : distance.bmod limit ≠ distance := fun same => fits (wrapped_eq_iff.mp same)
      rw [told]
      refine ⟨iff_of_false (fun same => wrong (Except.ok.inj same)) same,
        iff_of_false nofun fun other => fits other.2, fun _ => ⟨rfl, turned⟩, ?_⟩
      intro ordered interval measured
      cases measured
      refine iff_of_true wrong ?_
      unfold Fits at fits
      omega

/-- The last distances that overflow and the first that come out wrong, forward and back, and the
longest one on the late side. -/
theorem elapsed_around_half :
    half + 1 < limit ∧ limit - 1 < limit ∧
      elapsed 1 half = .error .subtract ∧ elapsed 0 half = .ok (-half) ∧
      elapsed half 0 = .error .subtract ∧ elapsed (half + 1) 0 = .ok (half - 1) ∧
      elapsed half (limit - 1) = .ok (half - 1) := by
  have near_forward := (elapsed_by_side 1 half (by decide) (by decide)).2.1
  have far_forward := (elapsed_by_side 0 half (by decide) (by decide)).2.2.1
  have near_back := (elapsed_by_side half 0 (by decide) (by decide)).2.1
  have far_back := (elapsed_by_side (half + 1) 0 (by decide) (by decide)).2.2.1
  have late := (elapsed_by_side half (limit - 1) (by decide) (by decide)).1
  unfold Fits at *
  exact ⟨by decide, by decide, near_forward.mpr (by decide), (far_forward (by decide)).1,
    near_back.mpr (by decide), (far_back (by decide)).1, late.mpr (by decide)⟩

end TwoWire.Time
