import InstanceTables.Error
import InstanceTables.Shape

/-!
# Physical spaces

A row of a table of spaces: a function space on a `dim`-dimensional domain that sits in
`dim + codim` dimensions, with the transformation that carries reference functions over.
From a row one reads off its face, its reference row and the shapes it needs.

The sum `dim + codim` is one of words; `Space.Fits` is the condition under which it is
exact, and every row that is read from a seed text meets it.
-/

namespace InstanceTables

/-- How a reference function is carried to the physical domain. -/
inductive Transformation where
  /-- Values are kept. -/
  | hGrad
  /-- Values are vectors of the physical space. -/
  | hDiv
deriving DecidableEq, Hashable, Ord, Repr

namespace Transformation

def all : List Transformation := [.hGrad, .hDiv]

theorem mem_all (t : Transformation) : t ∈ all := by
  cases t <;> decide

/-- The spelling used in seed texts and in class names. -/
def name : Transformation → String
  | hGrad => "h_grad"
  | hDiv => "h_div"

def ofName? : String → Option Transformation := findName? all name

/-- The spelling of a transformation names it. -/
theorem ofName?_name (t : Transformation) : ofName? t.name = some t := by
  cases t <;> rfl

def unknownMessage (word : String) : String := unknownName "transformation kind" word

def parse : String → Except String Transformation := parseName "transformation kind" all name

@[simp] theorem parse_name (t : Transformation) : parse t.name = .ok t :=
  parseName_of_find? (ofName?_name t)

theorem parse_eq_error_iff {word message : String} :
    parse word = .error message ↔
      (∀ t : Transformation, t.name ≠ word) ∧ message = unknownMessage word :=
  parseName_eq_error_iff mem_all

/-- The range of the transformed functions. -/
def physicalRange (range spaceDim : UInt32) : Transformation → UInt32
  | hGrad => range
  | hDiv => spaceDim

/-- The rank of the transformed functions; no transformation changes it. -/
def physicalRank (rank : UInt32) : Transformation → UInt32
  | hGrad => rank
  | hDiv => rank

end Transformation

/-- The transformation of a push-forward and the mapping that it goes along. -/
structure PushForward where
  transformation : Transformation
  dim : UInt32
  codim : UInt32
deriving DecidableEq, Hashable, Repr

/-- A row of a table of spaces. -/
structure Space where
  dim : UInt32
  codim : UInt32
  range : UInt32
  rank : UInt32
  transformation : Transformation
deriving DecidableEq, Hashable, Repr

namespace Space

variable (s : Space)

/-- The exact sum of `dim` and `codim` is a word. -/
def Fits : Prop := s.dim.toNat + s.codim.toNat < UInt32.size

instance : Decidable s.Fits := inferInstanceAs (Decidable (_ < _))

def spaceDim : UInt32 := s.dim + s.codim

/-- The range of the functions of the space on the physical domain. -/
def physicalRange : UInt32 := s.transformation.physicalRange s.range s.spaceDim

def physicalRank : UInt32 := s.transformation.physicalRank s.rank

/-- The space on a face of the domain: one dimension less, one codimension more.  A
point has no face. -/
def face? : Option Space :=
  if s.dim = 0 then none else some { s with dim := s.dim - 1, codim := s.codim + 1 }

/-- The row of the reference space itself, mapped by nothing. -/
def reference : Space := { s with codim := 0, transformation := .hGrad }

def mapping : Mapping := ⟨s.dim, s.codim⟩

def refShape : Shape := ⟨s.dim, s.range, s.rank⟩

/-- The shape of the functions on the surrounding space. -/
def physicalShape : Shape := ⟨s.spaceDim, s.physicalRange, s.physicalRank⟩

/-- How reference functions become functions of the space. -/
def pushForward : PushForward := ⟨s.transformation, s.dim, s.codim⟩

/-- The row, its face, the face of that, and so on until there is none, but at most
`limit` rows. -/
def faceChain : (limit : Nat) → Space → List Space
  | 0, _ => []
  | limit + 1, s => s :: (s.face?.map (faceChain limit)).getD []

variable {s}

/-- Only points have no face. -/
theorem face?_eq_none_iff : s.face? = none ↔ s.dim = 0 := by
  simp [face?]

/-- The face of a row that is no point. -/
theorem face?_eq_some_iff {t : Space} :
    s.face? = some t ↔ s.dim ≠ 0 ∧ t = { s with dim := s.dim - 1, codim := s.codim + 1 } := by
  simp [face?, eq_comm]

/-- A face lies in the same surrounding space. -/
theorem spaceDim_of_face? {t : Space} (h : s.face? = some t) : t.spaceDim = s.spaceDim := by
  obtain ⟨-, rfl⟩ := face?_eq_some_iff.1 h
  simp only [spaceDim]
  grind

/-- In a row that fits, the dimension of the surrounding space is the exact sum. -/
theorem spaceDim_toNat (h : s.Fits) : s.spaceDim.toNat = s.dim.toNat + s.codim.toNat := by
  rw [spaceDim, UInt32.toNat_add]
  exact Nat.mod_eq_of_lt h

/-- The reference row fits, whether the row itself does or not. -/
theorem fits_reference (s : Space) : s.reference.Fits := by
  have : s.dim.toNat < UInt32.size := s.dim.toNat_lt
  simpa [reference, Fits] using this

/-- The numbers of a face are exact if those of the row are. -/
theorem Fits.toNat_face (h : s.Fits) {t : Space} (ht : s.face? = some t) :
    t.dim.toNat = s.dim.toNat - 1 ∧ t.codim.toNat = s.codim.toNat + 1 ∧ 0 < s.dim.toNat := by
  obtain ⟨hd, rfl⟩ := face?_eq_some_iff.1 ht
  have hpos : 1 ≤ s.dim.toNat := Nat.one_le_iff_ne_zero.2 fun h0 => hd (UInt32.toNat_inj.1 h0)
  refine ⟨UInt32.toNat_sub_of_le _ _ hpos, ?_, hpos⟩
  change (s.codim + 1).toNat = _
  rw [UInt32.toNat_add]
  exact Nat.mod_eq_of_lt (Nat.lt_of_le_of_lt (by have := hpos; simp; omega) h)

/-- The face of a row that fits does so too. -/
theorem Fits.face (h : s.Fits) {t : Space} (ht : s.face? = some t) : t.Fits := by
  obtain ⟨hdim, hcodim, hpos⟩ := h.toNat_face ht
  rw [Fits, hdim, hcodim]
  exact Nat.lt_of_le_of_lt (by omega) h

end Space

end InstanceTables
