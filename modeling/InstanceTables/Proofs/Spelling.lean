import InstanceTables.Proofs.Text.Decimal
import InstanceTables.Spelling

/-!
# Names show where they end

Names are nested: an argument of a template may be a name that has commas, blanks and angle
brackets of its own.  No name can be misread all the same, since each one is
`SelfDelimiting`: whatever text follows it, the text shows where the name ends and what it
names.  So a format may be read from left to right, one literal, word or inner name after the
other.

The elements of product arrays are the exception.  `Real` begins the name `Real*`, and only
the comma behind shows which of the two it is (`spell_productElement_append_inj`).
-/

namespace InstanceTables

open Text (decimal decimal_append_cons_inj newline_not_mem_decimal)

/-- Types whose names show where they end. -/
class SelfDelimiting (α : Type) [Spelled α] : Prop where
  /-- A name in front of any text determines what is named and the text. -/
  append_inj {a b : α} {r s : List Char} :
    (spell a).toList ++ r = (spell b).toList ++ s → a = b ∧ r = s

theorem spell_append_inj {α : Type} [Spelled α] [SelfDelimiting α] {a b : α}
    {r s : List Char} : (spell a).toList ++ r = (spell b).toList ++ s ↔ a = b ∧ r = s :=
  ⟨SelfDelimiting.append_inj, fun ⟨h, h'⟩ => by rw [h, h']⟩

/-- Names that show where they end tell types apart. -/
theorem eq_of_spell_eq {α : Type} [Spelled α] [SelfDelimiting α] {a b : α}
    (h : spell a = spell b) : a = b :=
  (spell_append_inj.1 (congrArg (·.toList ++ []) h)).1

/-! ## Tensors -/

instance : SelfDelimiting Value where
  append_inj {v w r s} h := by
    obtain ⟨range, rank⟩ := v
    obtain ⟨range', rank'⟩ := w
    simpa [spell_value, decimal_append_cons_inj, and_assoc] using h

instance : SelfDelimiting Derivative where
  append_inj {x y r s} h := by
    obtain ⟨order, dim, value⟩ := x
    obtain ⟨order', dim', value'⟩ := y
    simp only [spell_derivative, String.toList_append, List.append_assoc] at h
    obtain ⟨hdim, horder, hvalue, hrest⟩ :
        dim = dim' ∧ order = order' ∧ value = value' ∧ r = s := by
      simpa [decimal_append_cons_inj, spell_append_inj] using h
    exact ⟨by rw [hdim, horder, hvalue], hrest⟩

/-- Derivatives and values are told apart by what follows their first two numbers. -/
theorem spell_derivative_append_ne {x : Derivative} {v : Value} {r s : List Char} :
    (spell x).toList ++ r ≠ (spell v).toList ++ s := by
  simp [spell_derivative, spell_value, decimal_append_cons_inj]

instance : SelfDelimiting Tensor where
  append_inj {t u r s} h := by
    cases t with
    | derivative x =>
      cases u with
      | derivative y =>
        exact ((spell_append_inj (a := x) (b := y)).1 h).imp_left (congrArg Tensor.derivative)
      | value w => exact absurd h spell_derivative_append_ne
    | value v =>
      cases u with
      | derivative y => exact absurd h.symm spell_derivative_append_ne
      | value w =>
        exact ((spell_append_inj (a := v) (b := w)).1 h).imp_left (congrArg Tensor.value)

/-! ## Containers -/

/-- No class of a dimension has a name that begins that of another. -/
theorem DimClass.className_append_inj {c d : DimClass} {r s : List Char} :
    c.className.toList ++ '<' :: r = d.className.toList ++ '<' :: s ↔ c = d ∧ r = s := by
  cases c <;> cases d <;> simp [className]

instance : SelfDelimiting DimContainer where
  append_inj {x y r s} h := by
    obtain ⟨c, dim⟩ := x
    obtain ⟨c', dim'⟩ := y
    simpa [spell_dimContainer, DimClass.className_append_inj, decimal_append_cons_inj,
      and_assoc] using h

instance : SelfDelimiting Scalar where
  append_inj {a b r s} h := by
    cases a <;> cases b <;> simp_all [spell]

theorem spell_tensorIndex (d : UInt32) :
    spell (ArrayElement.tensorIndex d) = "TensorIndex<" ++ decimal d ++ ">" := rfl

/-- The name of a tensor is that of its template with arguments behind. -/
theorem exists_spell_tensor (t : Tensor) : ∃ r, (spell t).toList = "Tensor<".toList ++ r := by
  cases t with
  | derivative x =>
    change ∃ r, (spell x).toList = _
    simp [spell_derivative]
  | value v =>
    change ∃ r, (spell v).toList = _
    simp [spell_value]

/-- A tensor is neither an index nor a scalar. -/
theorem spell_tensor_append_ne (t : Tensor) {r s : List Char} :
    (∀ d, (spell t).toList ++ r ≠ (spell (ArrayElement.tensorIndex d)).toList ++ s) ∧
      ∀ c : Scalar, (spell t).toList ++ r ≠ (spell c).toList ++ s := by
  obtain ⟨q, hq⟩ := exists_spell_tensor t
  refine ⟨fun d => ?_, fun c => ?_⟩
  · rw [hq]
    simp [spell_tensorIndex]
  · rw [hq]
    cases c <;> simp [spell]

/-- An index is no scalar. -/
theorem spell_tensorIndex_append_ne (d : UInt32) (c : Scalar) {r s : List Char} :
    (spell (ArrayElement.tensorIndex d)).toList ++ r ≠ (spell c).toList ++ s := by
  cases c <;> simp [spell]

instance : SelfDelimiting ArrayElement where
  append_inj {a b r s} h := by
    cases a with
    | tensorIndex d =>
      cases b with
      | tensorIndex e => simpa [spell_tensorIndex, decimal_append_cons_inj] using h
      | scalar c => exact absurd h (spell_tensorIndex_append_ne d c)
      | tensor u => exact absurd h.symm ((spell_tensor_append_ne u).1 d)
    | scalar c =>
      cases b with
      | tensorIndex e => exact absurd h.symm (spell_tensorIndex_append_ne e c)
      | scalar c' =>
        exact ((spell_append_inj (a := c) (b := c')).1 h).imp_left (congrArg ArrayElement.scalar)
      | tensor u => exact absurd h.symm ((spell_tensor_append_ne u).2 c)
    | tensor t =>
      cases b with
      | tensorIndex e => exact absurd h ((spell_tensor_append_ne t).1 e)
      | scalar c => exact absurd h ((spell_tensor_append_ne t).2 c)
      | tensor u =>
        exact ((spell_append_inj (a := t) (b := u)).1 h).imp_left (congrArg ArrayElement.tensor)

instance : SelfDelimiting DynamicMultiArray where
  append_inj {x y r s} h := by
    obtain ⟨element, rank⟩ := x
    obtain ⟨element', rank'⟩ := y
    simpa [spell_dynamicMultiArray, spell_append_inj, decimal_append_cons_inj, and_assoc] using h

/-- With a comma behind it, no name of an element begins that of another. -/
theorem spell_comma_prefixFree :
    ∀ a ∈ ProductElement.all, ∀ b ∈ ProductElement.all,
      ((spell a).toList ++ [',']) <+: ((spell b).toList ++ [',']) → a = b := by
  decide +kernel

/-- A comma behind the element of a product array shows where its name ends. -/
theorem spell_productElement_append_inj {a b : ProductElement} {r s : List Char} :
    (spell a).toList ++ ',' :: r = (spell b).toList ++ ',' :: s ↔ a = b ∧ r = s := by
  constructor
  · intro h
    have hab : a = b := by
      have ha : (spell a).toList ++ [','] <+: (spell b).toList ++ ',' :: s := ⟨r, by simpa using h⟩
      have hb : (spell b).toList ++ [','] <+: (spell b).toList ++ ',' :: s := ⟨s, by simp⟩
      rcases List.prefix_or_prefix_of_prefix ha hb with hpre | hpre
      · exact spell_comma_prefixFree a a.mem_all b b.mem_all hpre
      · exact (spell_comma_prefixFree b b.mem_all a a.mem_all hpre).symm
    subst hab
    simpa using h
  · rintro ⟨rfl, rfl⟩
    rfl

instance : SelfDelimiting CartesianProductArray where
  append_inj {x y r s} h := by
    obtain ⟨element, dim⟩ := x
    obtain ⟨element', dim'⟩ := y
    simpa [spell_cartesianProductArray, spell_productElement_append_inj, decimal_append_cons_inj,
      and_assoc] using h

instance : SelfDelimiting ValueVector where
  append_inj {v w r s} h := by
    cases v with
    | real =>
      cases w with
      | real => simpa [spell_valueVector_real] using h
      | tensor u =>
        obtain ⟨q, hq⟩ := exists_spell_tensor u
        rw [spell_valueVector_real, spell_valueVector_tensor] at h
        simp [hq] at h
    | tensor t =>
      cases w with
      | real =>
        obtain ⟨q, hq⟩ := exists_spell_tensor t
        rw [spell_valueVector_real, spell_valueVector_tensor] at h
        simp [hq] at h
      | tensor u => simpa [spell_valueVector_tensor, spell_append_inj] using h

instance : SelfDelimiting ValueTable where
  append_inj {x y r s} h := by
    obtain ⟨t⟩ := x
    obtain ⟨u⟩ := y
    simpa [spell_valueTable, spell_append_inj] using h

instance : SelfDelimiting Mapping where
  append_inj {x y r s} h := by
    obtain ⟨dim, codim⟩ := x
    obtain ⟨dim', codim'⟩ := y
    simpa [spell_mapping, decimal_append_cons_inj, and_assoc] using h

theorem SplineKind.className_append_inj {k l : SplineKind} {r s : List Char} :
    k.className.toList ++ '<' :: r = l.className.toList ++ '<' :: s ↔ k = l ∧ r = s := by
  cases k <;> cases l <;> simp [className]

instance : SelfDelimiting RefSpace where
  append_inj {x y r s} h := by
    obtain ⟨kind, dim, range, rank⟩ := x
    obtain ⟨kind', dim', range', rank'⟩ := y
    simpa [spell_refSpace, SplineKind.className_append_inj, decimal_append_cons_inj,
      and_assoc] using h

theorem Transformation.name_append_inj {t u : Transformation} {r s : List Char} :
    t.name.toList ++ ',' :: r = u.name.toList ++ ',' :: s ↔ t = u ∧ r = s := by
  cases t <;> cases u <;> simp [name]

instance : SelfDelimiting PushForward where
  append_inj {x y r s} h := by
    obtain ⟨transformation, dim, codim⟩ := x
    obtain ⟨transformation', dim', codim'⟩ := y
    simpa [spell_pushForward, Transformation.name_append_inj, decimal_append_cons_inj,
      and_assoc] using h

instance : SelfDelimiting PhysicalSpace where
  append_inj {x y r s} h := by
    obtain ⟨refSpace, pushForward⟩ := x
    obtain ⟨refSpace', pushForward'⟩ := y
    simpa [spell_physicalSpace, spell_append_inj, and_assoc] using h

/-! ## Names stay on one line -/

/-- Types whose names have no line feed. -/
class SingleLine (α : Type) [Spelled α] : Prop where
  newline_not_mem (a : α) : '\n' ∉ (spell a).toList

instance : SingleLine Value where
  newline_not_mem v := by simp [spell_value, newline_not_mem_decimal]

instance : SingleLine Derivative where
  newline_not_mem x := by
    simp [spell_derivative, newline_not_mem_decimal, SingleLine.newline_not_mem]

instance : SingleLine Tensor where
  newline_not_mem
    | .derivative x => SingleLine.newline_not_mem x
    | .value v => SingleLine.newline_not_mem v

instance : SingleLine DimContainer where
  newline_not_mem c := by
    have hclass : '\n' ∉ c.template.className.toList := by
      cases c.template <;> decide
    simp [spell_dimContainer, newline_not_mem_decimal, hclass]

instance : SingleLine ArrayElement where
  newline_not_mem
    | .tensorIndex d => by simp [spell_tensorIndex, newline_not_mem_decimal]
    | .scalar c => by cases c <;> simp [spell]
    | .tensor t => SingleLine.newline_not_mem t

instance : SingleLine DynamicMultiArray where
  newline_not_mem a := by
    simp [spell_dynamicMultiArray, newline_not_mem_decimal, SingleLine.newline_not_mem]

instance : SingleLine ProductElement where
  newline_not_mem
    | .real | .realPtr | .index => by simp [spell]
    | .cache c => by cases c <;> simp [spell, matrixName]

instance : SingleLine CartesianProductArray where
  newline_not_mem a := by
    simp [spell_cartesianProductArray, newline_not_mem_decimal, SingleLine.newline_not_mem]

instance : SingleLine ValueVector where
  newline_not_mem
    | .real => by simp [spell_valueVector_real]
    | .tensor t => by simp [spell_valueVector_tensor, SingleLine.newline_not_mem]

instance : SingleLine ValueTable where
  newline_not_mem t := by simp [spell_valueTable, SingleLine.newline_not_mem]

instance : SingleLine Mapping where
  newline_not_mem m := by simp [spell_mapping, newline_not_mem_decimal]

instance : SingleLine RefSpace where
  newline_not_mem r := by
    have hclass : '\n' ∉ r.kind.className.toList := by
      cases r.kind <;> decide
    simp [spell_refSpace, newline_not_mem_decimal, hclass]

instance : SingleLine PushForward where
  newline_not_mem p := by
    have hname : '\n' ∉ p.transformation.name.toList := by
      cases p.transformation <;> decide
    simp [spell_pushForward, newline_not_mem_decimal, hname]

instance : SingleLine PhysicalSpace where
  newline_not_mem s := by simp [spell_physicalSpace, SingleLine.newline_not_mem]

end InstanceTables
