import InstanceTables.Declaration
import InstanceTables.Proofs.Spelling

/-!
# Names of declarations

A declaration belongs to one family, and the class templates of a family are those of no
other.  So the name of a declaration, up to the first angle bracket, shows the family, and
the rest of the name shows which member of the family it is.  Like the names of all types,
those of declarations show where they end, so that different declarations have different names.
-/

namespace InstanceTables

namespace Family

/-- The class templates of a family.  The blank is part of the name. -/
def templates : Family → List String
  | tensors => ["Tensor"]
  | perDim c => [c.className]
  | dynamicMultiArray => ["DynamicMultiArray"]
  | cartesianProductArray => ["CartesianProductArray"]
  | valueVector => ["ValueVector"]
  | valueTable => ["ValueTable"]
  | mapping => ["Mapping"]
  | refSpace => SplineKind.all.map SplineKind.className
  | pushForward => ["PushForward"]
  | physicalSpace => ["PhysicalSpace "]

/-- A class template belongs to one family. -/
theorem templates_disjoint :
    ∀ f ∈ all, ∀ g ∈ all, ∀ t ∈ f.templates, t ∈ g.templates → f = g := by
  decide +kernel

/-- The name of a class template has no angle bracket. -/
theorem bracket_not_mem_templates : ∀ f ∈ all, ∀ t ∈ f.templates, '<' ∉ t.toList := by
  decide +kernel

end Family

namespace Declaration

def family : Declaration → Family
  | tensor _ => .tensors
  | dimContainer c => .perDim c.template
  | dynamicMultiArray _ => .dynamicMultiArray
  | cartesianProductArray _ => .cartesianProductArray
  | valueVector _ => .valueVector
  | valueTable _ => .valueTable
  | mapping _ => .mapping
  | refSpace _ => .refSpace
  | pushForward _ => .pushForward
  | physicalSpace _ => .physicalSpace

/-- The declarations of a family belong to it. -/
theorem family_of_mem_declarations {c : Catalogue} {f : Family} {d : Declaration}
    (h : d ∈ f.declarations c) : d.family = f := by
  cases f with
  | perDim k =>
    obtain ⟨x, hx, rfl⟩ := List.mem_map.1 h
    obtain ⟨n, -, rfl⟩ := List.mem_map.1 hx
    rfl
  | _ =>
    obtain ⟨x, -, rfl⟩ := List.mem_map.1 h
    rfl

/-- A name begins with a class template of the family and an angle bracket. -/
theorem exists_template_spell (d : Declaration) :
    ∃ t ∈ d.family.templates, ∃ r, (spell d).toList = t.toList ++ '<' :: r := by
  cases d with
  | tensor t =>
    obtain ⟨r, hr⟩ := exists_spell_tensor t
    exact ⟨"Tensor", List.mem_cons_self, r, hr⟩
  | dimContainer c =>
    change ∃ t ∈ [c.template.className], ∃ r, (spell c).toList = t.toList ++ '<' :: r
    simp [spell_dimContainer]
  | dynamicMultiArray a =>
    change ∃ t ∈ ["DynamicMultiArray"], ∃ r, (spell a).toList = t.toList ++ '<' :: r
    simp [spell_dynamicMultiArray]
  | cartesianProductArray a =>
    change ∃ t ∈ ["CartesianProductArray"], ∃ r, (spell a).toList = t.toList ++ '<' :: r
    simp [spell_cartesianProductArray]
  | valueVector v =>
    change ∃ t ∈ ["ValueVector"], ∃ r, (spell v).toList = t.toList ++ '<' :: r
    cases v <;> simp [spell_valueVector_real, spell_valueVector_tensor]
  | valueTable t =>
    change ∃ t' ∈ ["ValueTable"], ∃ r, (spell t).toList = t'.toList ++ '<' :: r
    simp [spell_valueTable]
  | mapping m =>
    change ∃ t ∈ ["Mapping"], ∃ r, (spell m).toList = t.toList ++ '<' :: r
    simp [spell_mapping]
  | refSpace s =>
    refine ⟨s.kind.className, List.mem_map_of_mem s.kind.mem_all, ?_⟩
    change ∃ r, (spell s).toList = _
    simp [spell_refSpace]
  | pushForward p =>
    change ∃ t ∈ ["PushForward"], ∃ r, (spell p).toList = t.toList ++ '<' :: r
    simp [spell_pushForward]
  | physicalSpace s =>
    change ∃ t ∈ ["PhysicalSpace "], ∃ r, (spell s).toList = t.toList ++ '<' :: r
    simp [spell_physicalSpace]

/-- The template can be read off a name: it is what stands before the first bracket. -/
theorem takeWhile_template {f : Family} {t : String} (ht : t ∈ f.templates) (r : List Char) :
    (t.toList ++ '<' :: r).takeWhile (· ≠ '<') = t.toList := by
  refine Text.takeWhile_append_cons (fun c hc => ?_) (by simp) r
  have hne : c ≠ '<' := fun h => Family.bracket_not_mem_templates f f.mem_all t ht (h ▸ hc)
  exact decide_eq_true hne

/-- A text that begins with the name of a declaration shows the family. -/
theorem family_eq_of_spell_append_eq {a b : Declaration} {r s : List Char}
    (h : (spell a).toList ++ r = (spell b).toList ++ s) : a.family = b.family := by
  obtain ⟨t, ht, p, hp⟩ := exists_template_spell a
  obtain ⟨u, hu, q, hq⟩ := exists_template_spell b
  rw [hp, hq, List.append_assoc, List.append_assoc, List.cons_append, List.cons_append] at h
  have htu : t = u := by
    rw [← String.toList_inj]
    calc
      t.toList = (t.toList ++ '<' :: (p ++ r)).takeWhile (· ≠ '<') :=
        (takeWhile_template ht _).symm
      _ = (u.toList ++ '<' :: (q ++ s)).takeWhile (· ≠ '<') := by rw [h]
      _ = u.toList := takeWhile_template hu _
  exact Family.templates_disjoint _ a.family.mem_all _ b.family.mem_all t ht (htu ▸ hu)

/-- Whatever follows the name of a declaration, the text shows where the name ends and what
is declared: first the family, then the member of it. -/
instance : SelfDelimiting Declaration where
  append_inj {a b r s} h := by
    have hf := family_eq_of_spell_append_eq h
    cases a with
    | tensor t =>
      cases b with
      | tensor u => exact ((spell_append_inj (a := t) (b := u)).1 h).imp_left (congrArg tensor)
      | _ => simp [family] at hf
    | dimContainer x =>
      cases b with
      | dimContainer y =>
        exact ((spell_append_inj (a := x) (b := y)).1 h).imp_left (congrArg dimContainer)
      | _ => simp [family] at hf
    | dynamicMultiArray x =>
      cases b with
      | dynamicMultiArray y =>
        exact ((spell_append_inj (a := x) (b := y)).1 h).imp_left (congrArg dynamicMultiArray)
      | _ => simp [family] at hf
    | cartesianProductArray x =>
      cases b with
      | cartesianProductArray y =>
        exact ((spell_append_inj (a := x) (b := y)).1 h).imp_left (congrArg cartesianProductArray)
      | _ => simp [family] at hf
    | valueVector v =>
      cases b with
      | valueVector w =>
        exact ((spell_append_inj (a := v) (b := w)).1 h).imp_left (congrArg valueVector)
      | _ => simp [family] at hf
    | valueTable t =>
      cases b with
      | valueTable u =>
        exact ((spell_append_inj (a := t) (b := u)).1 h).imp_left (congrArg valueTable)
      | _ => simp [family] at hf
    | mapping m =>
      cases b with
      | mapping n => exact ((spell_append_inj (a := m) (b := n)).1 h).imp_left (congrArg mapping)
      | _ => simp [family] at hf
    | refSpace x =>
      cases b with
      | refSpace y => exact ((spell_append_inj (a := x) (b := y)).1 h).imp_left (congrArg refSpace)
      | _ => simp [family] at hf
    | pushForward p =>
      cases b with
      | pushForward q =>
        exact ((spell_append_inj (a := p) (b := q)).1 h).imp_left (congrArg pushForward)
      | _ => simp [family] at hf
    | physicalSpace x =>
      cases b with
      | physicalSpace y =>
        exact ((spell_append_inj (a := x) (b := y)).1 h).imp_left (congrArg physicalSpace)
      | _ => simp [family] at hf

/-- Two declarations have one name if and only if they declare the same instance of the same
class template. -/
theorem spell_inj {a b : Declaration} : spell a = spell b ↔ a = b := by
  constructor
  · exact eq_of_spell_eq
  · rintro rfl
    rfl

/-- The name of a declaration stays on its line. -/
theorem newline_not_mem_spell (d : Declaration) : '\n' ∉ (spell d).toList := by
  cases d with
  | tensor t => exact SingleLine.newline_not_mem t
  | dimContainer c => exact SingleLine.newline_not_mem c
  | dynamicMultiArray a => exact SingleLine.newline_not_mem a
  | cartesianProductArray a => exact SingleLine.newline_not_mem a
  | valueVector v => exact SingleLine.newline_not_mem v
  | valueTable t => exact SingleLine.newline_not_mem t
  | mapping m => exact SingleLine.newline_not_mem m
  | refSpace r => exact SingleLine.newline_not_mem r
  | pushForward p => exact SingleLine.newline_not_mem p
  | physicalSpace s => exact SingleLine.newline_not_mem s

end Declaration

end InstanceTables
