import InstanceTables.Proofs.Membership

/-!
# The tensor types that seeds require

What the table of tensor types is for, in exact numbers.  The seeds reach certain rows, each
row requires functions of certain shapes, and for each of these shapes the library needs the
type of the values and those of the derivatives.  `RequiredShape` says this without words,
sums of words or tables.

The main statement is that the table holds these types and no others, as long as no sum of
dimensions overflows.  It has two parts on the way:

* the closure consists of the rows that are reached (`reachedRow_iff_mem_all`);
* the shapes at hand are those that are required (`requiredShape_iff`).
-/

namespace InstanceTables

/-- The rows that the seeds reach: the seeds, and the face of each seed that is no point. -/
inductive ReachedRow (seeds : List Space) :
    (dim codim range rank : Nat) → Transformation → Prop
  | seed {s : Space} (h : s ∈ seeds) :
    ReachedRow seeds s.dim.toNat s.codim.toNat s.range.toNat s.rank.toNat s.transformation
  | face {s : Space} (h : s ∈ seeds) (hdim : 0 < s.dim.toNat) :
    ReachedRow seeds (s.dim.toNat - 1) (s.codim.toNat + 1) s.range.toNat s.rank.toNat
      s.transformation

/-- The shapes of the functions that the seeds require: the point scalar, and for each row
that is reached the functions on either side of it and the mapping in both directions. -/
inductive RequiredShape (seeds : List Space) : (dim range rank : Nat) → Prop
  | point : RequiredShape seeds 0 0 1
  | reference {d c r k : Nat} {t : Transformation} (h : ReachedRow seeds d c r k t) :
    RequiredShape seeds d r k
  /-- Values that are kept. -/
  | physicalGrad {d c r k : Nat} (h : ReachedRow seeds d c r k .hGrad) :
    RequiredShape seeds (d + c) r k
  /-- Values that are vectors of the surrounding space. -/
  | physicalDiv {d c r k : Nat} (h : ReachedRow seeds d c r k .hDiv) :
    RequiredShape seeds (d + c) (d + c) k
  | forward {d c r k : Nat} {t : Transformation} (h : ReachedRow seeds d c r k t) :
    RequiredShape seeds d (d + c) 1
  | inverse {d c r k : Nat} {t : Transformation} (h : ReachedRow seeds d c r k t) :
    RequiredShape seeds (d + c) d 1

variable {seeds : List Space} {n : MaxOrder}

/-- If the seeds fit, so does every row of the closure. -/
theorem fits_of_mem_all (hfits : ∀ s ∈ seeds, s.Fits) {s : Space}
    (hs : s ∈ (Catalogue.ofSeeds seeds n).spaces.all) : s.Fits := by
  rcases Catalogue.mem_all.1 hs with hs | ⟨t, ht, hface⟩
  · exact hfits s hs
  · exact (hfits t ht).face hface

/-- A row of the closure is reached. -/
theorem reachedRow_of_mem_all (hfits : ∀ s ∈ seeds, s.Fits) {s : Space}
    (hs : s ∈ (Catalogue.ofSeeds seeds n).spaces.all) :
    ReachedRow seeds s.dim.toNat s.codim.toNat s.range.toNat s.rank.toNat s.transformation := by
  rcases Catalogue.mem_all.1 hs with hs | ⟨t, ht, hface⟩
  · exact .seed hs
  · obtain ⟨hdim, hcodim, hpos⟩ := (hfits t ht).toNat_face hface
    obtain ⟨-, rfl⟩ := Space.face?_eq_some_iff.1 hface
    rw [hdim, hcodim]
    exact .face ht hpos

/-- The rows that are reached are those of the closure. -/
theorem reachedRow_iff_mem_all (hfits : ∀ s ∈ seeds, s.Fits) {d c r k : Nat}
    {t : Transformation} :
    ReachedRow seeds d c r k t ↔
      ∃ s ∈ (Catalogue.ofSeeds seeds n).spaces.all, s.dim.toNat = d ∧ s.codim.toNat = c ∧
        s.range.toNat = r ∧ s.rank.toNat = k ∧ s.transformation = t := by
  constructor
  · intro h
    cases h with
    | @seed s hs => exact ⟨s, Catalogue.mem_all.2 (.inl hs), rfl, rfl, rfl, rfl, rfl⟩
    | @face s hs hpos =>
      have hdim : s.dim ≠ 0 := fun h0 => by simp [h0] at hpos
      have hface := Space.face?_eq_some_iff.2 ⟨hdim, rfl⟩
      obtain ⟨hd, hc, -⟩ := (hfits s hs).toNat_face hface
      exact ⟨_, Catalogue.mem_all.2 (.inr ⟨s, hs, hface⟩), hd, hc, rfl, rfl, rfl⟩
  · rintro ⟨s, hs, rfl, rfl, rfl, rfl, rfl⟩
    exact reachedRow_of_mem_all hfits hs

/-! ## Shapes -/

/-- Each of the four shapes that a row of the closure needs is required. -/
theorem requiredShape_of_mem_functions (hfits : ∀ s ∈ seeds, s.Fits) {f : Shape}
    (hf : f ∈ (Catalogue.ofSeeds seeds n).shapes.functions) :
    RequiredShape seeds f.dim.toNat f.range.toNat f.rank.toNat := by
  obtain ⟨s, hs, hf⟩ := Catalogue.mem_functions.1 hf
  have hrow := reachedRow_of_mem_all hfits hs
  have hsum : (s.dim + s.codim).toNat = s.dim.toNat + s.codim.toNat :=
    Space.spaceDim_toNat (fits_of_mem_all hfits hs)
  rcases hf with rfl | rfl | rfl | rfl
  · exact .reference hrow
  · change RequiredShape seeds (s.dim + s.codim).toNat
      (s.transformation.physicalRange s.range (s.dim + s.codim)).toNat
      (s.transformation.physicalRank s.rank).toNat
    cases ht : s.transformation with
    | hGrad =>
      rw [ht] at hrow
      simpa only [Transformation.physicalRange, Transformation.physicalRank, hsum] using
        RequiredShape.physicalGrad hrow
    | hDiv =>
      rw [ht] at hrow
      simpa only [Transformation.physicalRange, Transformation.physicalRank, hsum] using
        RequiredShape.physicalDiv hrow
  · change RequiredShape seeds s.dim.toNat (s.dim + s.codim).toNat 1
    rw [hsum]
    exact .forward hrow
  · change RequiredShape seeds (s.dim + s.codim).toNat s.dim.toNat 1
    rw [hsum]
    exact .inverse hrow

/-- The shapes that are required are those at hand. -/
theorem requiredShape_iff (hfits : ∀ s ∈ seeds, s.Fits) {d r k : Nat} :
    RequiredShape seeds d r k ↔
      ∃ f, (f ∈ (Catalogue.ofSeeds seeds n).shapes.functions ∨ f = pointScalar) ∧
        f.dim.toNat = d ∧ f.range.toNat = r ∧ f.rank.toNat = k := by
  constructor
  · intro h
    cases h with
    | point => exact ⟨pointScalar, .inr rfl, rfl, rfl, rfl⟩
    | reference h =>
      obtain ⟨s, hs, rfl, rfl, rfl, rfl, rfl⟩ := (reachedRow_iff_mem_all (n := n) hfits).1 h
      exact ⟨s.refShape, .inl (Catalogue.mem_functions.2 ⟨s, hs, .inl rfl⟩), rfl, rfl, rfl⟩
    | physicalGrad h =>
      obtain ⟨s, hs, rfl, rfl, rfl, rfl, ht⟩ := (reachedRow_iff_mem_all (n := n) hfits).1 h
      refine ⟨s.physicalShape, .inl (Catalogue.mem_functions.2 ⟨s, hs, .inr (.inl rfl)⟩),
        Space.spaceDim_toNat (fits_of_mem_all hfits hs), ?_, ?_⟩
      · simp [Space.physicalShape, Space.physicalRange, Transformation.physicalRange, ht]
      · simp [Space.physicalShape, Space.physicalRank, Transformation.physicalRank, ht]
    | physicalDiv h =>
      obtain ⟨s, hs, rfl, rfl, rfl, rfl, ht⟩ := (reachedRow_iff_mem_all (n := n) hfits).1 h
      have hsum := Space.spaceDim_toNat (fits_of_mem_all hfits hs)
      refine ⟨s.physicalShape, .inl (Catalogue.mem_functions.2 ⟨s, hs, .inr (.inl rfl)⟩),
        hsum, ?_, ?_⟩
      · simp [Space.physicalShape, Space.physicalRange, Transformation.physicalRange, ht, hsum]
      · simp [Space.physicalShape, Space.physicalRank, Transformation.physicalRank, ht]
    | forward h =>
      obtain ⟨s, hs, rfl, rfl, -⟩ := (reachedRow_iff_mem_all (n := n) hfits).1 h
      exact ⟨s.mapping.forward,
        .inl (Catalogue.mem_functions.2 ⟨s, hs, .inr (.inr (.inl rfl))⟩), rfl,
        Space.spaceDim_toNat (fits_of_mem_all hfits hs), rfl⟩
    | inverse h =>
      obtain ⟨s, hs, rfl, rfl, -⟩ := (reachedRow_iff_mem_all (n := n) hfits).1 h
      exact ⟨s.mapping.inverse,
        .inl (Catalogue.mem_functions.2 ⟨s, hs, .inr (.inr (.inr rfl))⟩),
        Space.spaceDim_toNat (fits_of_mem_all hfits hs), rfl, rfl⟩
  · rintro ⟨f, hf | rfl, rfl, rfl, rfl⟩
    · exact requiredShape_of_mem_functions hfits hf
    · exact .point

/-! ## Tensor types -/

/-- The type of a value is listed if some required shape has it. -/
theorem mem_values_iff_required (hfits : ∀ s ∈ seeds, s.Fits) (hne : seeds ≠ []) {v : Value} :
    v ∈ (Catalogue.ofSeeds seeds n).tensors.values ↔
      ∃ d, RequiredShape seeds d v.range.toNat v.rank.toNat := by
  rw [Catalogue.mem_values]
  constructor
  · rintro ⟨-, f, hf, rfl⟩
    exact ⟨f.dim.toNat, (requiredShape_iff hfits).2 ⟨f, hf, rfl, rfl, rfl⟩⟩
  · rintro ⟨d, h⟩
    obtain ⟨f, hf, -, hr, hk⟩ := (requiredShape_iff (n := n) hfits).1 h
    refine ⟨hne, f, hf, ?_⟩
    rw [Value.ofShape, UInt32.toNat_inj.1 hr, UInt32.toNat_inj.1 hk]

/-- Orders that are words are at least one if they are not zero. -/
theorem one_le_toNat_iff {o : UInt32} : 1 ≤ o.toNat ↔ o ≠ 0 := by
  rw [Nat.one_le_iff_ne_zero, ne_eq, ne_eq, ← UInt32.toNat_inj]
  rfl

/-- The type of a derivative is listed if it stands for the order zero of some required
shape, or if its order is listed and its shape is required. -/
theorem mem_derivatives_iff_required (hfits : ∀ s ∈ seeds, s.Fits) (hne : seeds ≠ [])
    {x : Derivative} :
    x ∈ (Catalogue.ofSeeds seeds n).tensors.derivatives ↔
      (x.order = 1 ∧ x.dim = 1 ∧
          ∃ d, RequiredShape seeds d x.value.range.toNat x.value.rank.toNat) ∨
        (1 ≤ x.order.toNat ∧ x.order.toNat ≤ n.max.toNat ∧
          RequiredShape seeds x.dim.toNat x.value.range.toNat x.value.rank.toNat) := by
  rw [Catalogue.mem_derivatives]
  constructor
  · rintro ⟨-, o, ho, f, hf, rfl⟩
    have hreq := (requiredShape_iff hfits).2 ⟨f, hf, rfl, rfl, rfl⟩
    by_cases h0 : o = 0
    · subst h0
      exact .inl ⟨rfl, rfl, f.dim.toNat, hreq⟩
    · rw [Derivative.ofOrder, if_neg h0]
      exact .inr ⟨one_le_toNat_iff.2 h0, UInt32.le_iff_toNat_le.1 ho, hreq⟩
  · obtain ⟨order, dim, value⟩ := x
    rintro (⟨rfl, rfl, d, h⟩ | ⟨hone, hle, h⟩)
    · obtain ⟨f, hf, -, hr, hk⟩ := (requiredShape_iff (n := n) hfits).1 h
      refine ⟨hne, 0, UInt32.zero_le, f, hf, ?_⟩
      rw [Derivative.ofOrder, if_pos rfl, Derivative.zeroth, Value.ofShape,
        UInt32.toNat_inj.1 hr, UInt32.toNat_inj.1 hk]
    · obtain ⟨f, hf, hd, hr, hk⟩ := (requiredShape_iff (n := n) hfits).1 h
      refine ⟨hne, order, UInt32.le_iff_toNat_le.2 hle, f, hf, ?_⟩
      rw [Derivative.ofOrder, if_neg (one_le_toNat_iff.1 hone), Derivative.ofShape,
        Value.ofShape, UInt32.toNat_inj.1 hd, UInt32.toNat_inj.1 hr, UInt32.toNat_inj.1 hk]

/-- The table of tensor types is exact.  Without seeds it is empty.  Otherwise its values are
those of the required shapes, and its derivatives are those of the required shapes in every
order from one to the highest, with one more derivative on a line for the order zero of each. -/
theorem tensors_exact (hfits : ∀ s ∈ seeds, s.Fits) (n : MaxOrder) :
    (seeds = [] →
      (Catalogue.ofSeeds seeds n).tensors.values = [] ∧
        (Catalogue.ofSeeds seeds n).tensors.derivatives = []) ∧
    (seeds ≠ [] →
      (∀ v : Value, v ∈ (Catalogue.ofSeeds seeds n).tensors.values ↔
        ∃ d, RequiredShape seeds d v.range.toNat v.rank.toNat) ∧
      (∀ x : Derivative, x ∈ (Catalogue.ofSeeds seeds n).tensors.derivatives ↔
        (x.order = 1 ∧ x.dim = 1 ∧
            ∃ d, RequiredShape seeds d x.value.range.toNat x.value.rank.toNat) ∨
          (1 ≤ x.order.toNat ∧ x.order.toNat ≤ n.max.toNat ∧
            RequiredShape seeds x.dim.toNat x.value.range.toNat x.value.rank.toNat))) := by
  constructor
  · rintro rfl
    exact ⟨rfl, rfl⟩
  · intro hne
    exact ⟨fun v => mem_values_iff_required hfits hne,
      fun x => mem_derivatives_iff_required hfits hne⟩

/-- A vector field on a surface in space, up to the second order.  The values on the surface
are vectors of the space, of which the second derivative is listed. -/
theorem tensors_exact_surface :
    (∀ s ∈ [(⟨2, 1, 2, 1, .hDiv⟩ : Space)], s.Fits) ∧ [(⟨2, 1, 2, 1, .hDiv⟩ : Space)] ≠ [] ∧
      (⟨3, 1⟩ : Value) ∈
        (Catalogue.ofSeeds [⟨2, 1, 2, 1, .hDiv⟩] ⟨2⟩).tensors.values ∧
      (⟨2, 3, ⟨3, 1⟩⟩ : Derivative) ∈
        (Catalogue.ofSeeds [⟨2, 1, 2, 1, .hDiv⟩] ⟨2⟩).tensors.derivatives := by
  have hfits : ∀ s ∈ [(⟨2, 1, 2, 1, .hDiv⟩ : Space)], s.Fits := by decide
  have hne : [(⟨2, 1, 2, 1, .hDiv⟩ : Space)] ≠ [] := by decide
  obtain ⟨hvalues, hderivatives⟩ := (tensors_exact hfits ⟨2⟩).2 hne
  have hrow : ReachedRow [⟨2, 1, 2, 1, .hDiv⟩] 2 1 2 1 .hDiv := .seed List.mem_cons_self
  have hreq := RequiredShape.physicalDiv hrow
  refine ⟨hfits, hne, (hvalues _).2 ⟨3, hreq⟩, (hderivatives _).2 (.inr ⟨?_, ?_, hreq⟩)⟩
  · decide
  · decide

end InstanceTables
