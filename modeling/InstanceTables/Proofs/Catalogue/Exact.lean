import InstanceTables.Proofs.Seed.Table
import InstanceTables.Proofs.Tensor.Required

/-!
# Sums are exact

Numbers are words, and their sums wrap around.  The only place where this is guarded against is
the reading of a line.  `Addition` lists the additions that come after it; none of them wraps,
since a row that fits has faces, a reference row and a mapping that fit.
-/

namespace InstanceTables

/-- The additions that making a catalogue from rows comes to: their operands, and the entry of
the catalogue that holds the result.  Writing the catalogue adds nothing. -/
inductive Addition (rows : List Space) (catalogue : Catalogue) :
    (left right result : UInt32) → Prop
  | seed {s : Space} (hs : s ∈ rows) : Addition rows catalogue s.dim s.codim s.spaceDim
  | faceCodim {s t : Space} (hs : s ∈ catalogue.spaces.user) (ht : s.face? = some t) :
    Addition rows catalogue s.codim 1 t.codim
  | face {s t : Space} (hs : s ∈ catalogue.spaces.user) (ht : s.face? = some t) :
    Addition rows catalogue t.dim t.codim t.spaceDim
  | reference {s : Space} (hs : s ∈ catalogue.spaces.all) :
    Addition rows catalogue s.reference.dim s.reference.codim s.reference.spaceDim
  | mapping {m : Mapping} (hm : m ∈ catalogue.shapes.mappings) :
    Addition rows catalogue m.dim m.codim m.spaceDim

variable {seeds : List Space} {n : MaxOrder}

/-- Every row of the tables of spaces fits if the seeds do. -/
theorem fits_of_mem_spaces (hfits : ∀ s ∈ seeds, s.Fits) {s : Space}
    (hs : s ∈ (Catalogue.ofSeeds seeds n).spaces.user ∨
      s ∈ (Catalogue.ofSeeds seeds n).spaces.face ∨
      s ∈ (Catalogue.ofSeeds seeds n).spaces.all ∨
      s ∈ (Catalogue.ofSeeds seeds n).spaces.extended) : s.Fits := by
  rcases hs with hs | hs | hs | hs
  · exact hfits s (Catalogue.mem_user.1 hs)
  · obtain ⟨t, ht, hface⟩ := Catalogue.mem_face.1 hs
    exact (hfits t ht).face hface
  · exact fits_of_mem_all hfits hs
  · obtain ⟨t, -, rfl⟩ := Catalogue.mem_extended.1 hs
    exact t.fits_reference

/-- From seeds that fit, every addition is exact. -/
theorem Addition.toNat_eq (hfits : ∀ s ∈ seeds, s.Fits) {left right result : UInt32}
    (h : Addition seeds (Catalogue.ofSeeds seeds n) left right result) :
    result.toNat = left.toNat + right.toNat := by
  cases h with
  | seed hs => exact Space.spaceDim_toNat (hfits _ hs)
  | faceCodim hs ht => exact ((hfits _ (Catalogue.mem_user.1 hs)).toNat_face ht).2.1
  | face hs ht => exact Space.spaceDim_toNat ((hfits _ (Catalogue.mem_user.1 hs)).face ht)
  | reference hs => exact Space.spaceDim_toNat (Space.fits_reference _)
  | mapping hm =>
    obtain ⟨s, hs, rfl⟩ := Catalogue.mem_mappings.1 hm
    exact Space.spaceDim_toNat (fits_of_mem_all hfits hs)

/-- No addition wraps around.  In a catalogue that is made from the rows of a seed text, the
result of each is the exact sum, which is a word, and every row of the tables of spaces has the
exact sum as the dimension of its surrounding space.  A line whose first numbers have a sum that
is no word is not accepted, and neither is a text with that line. -/
theorem additions_exact {text : String} {rows : List Space}
    (h : Seed.parseTable text = .ok rows) (n : MaxOrder) :
    (∀ left right result : UInt32,
      Addition rows (Catalogue.ofSeeds rows n) left right result →
        result.toNat = left.toNat + right.toNat ∧ left.toNat + right.toNat ≤ 4294967295) ∧
    (∀ s : Space, s ∈ (Catalogue.ofSeeds rows n).spaces.user ∨
        s ∈ (Catalogue.ofSeeds rows n).spaces.face ∨
        s ∈ (Catalogue.ofSeeds rows n).spaces.all ∨
        s ∈ (Catalogue.ofSeeds rows n).spaces.extended →
      s.spaceDim.toNat = s.dim.toNat + s.codim.toNat) ∧
    ∀ (line row dim codim : List Char) (fields : List (List Char)) (d c : Nat),
      Text.Trims line row → Text.Fields row (dim :: codim :: fields) → Text.IsNumeral dim d →
        Text.IsNumeral codim c → 4294967295 < d + c →
      (∀ (k : Nat) (r : Option Space), Seed.parseLine k line ≠ .ok r) ∧
        ∀ (other : String) (rows' : List Space), line ∈ Text.lines other.toList →
          Seed.parseTable other ≠ .ok rows' := by
  have hfits := Seed.fits_of_parseTable h
  refine ⟨fun left right result hadd => ?_,
    fun s hs => Space.spaceDim_toNat (fits_of_mem_spaces hfits hs), ?_⟩
  · have hsum := hadd.toNat_eq hfits
    exact ⟨hsum, hsum ▸ Nat.le_of_lt_succ result.toNat_lt⟩
  · intro line row dim codim fields d c htrims hfields hdim hcodim hlarge
    have hrefused (k : Nat) (r : Option Space) : Seed.parseLine k line ≠ .ok r := by
      intro hline
      have hsum := Seed.sum_lt_of_parseLine hline htrims hfields hdim hcodim
      exact absurd hsum (Nat.not_lt.2 hlarge)
    refine ⟨hrefused, fun other rows' hmem hother => ?_⟩
    obtain ⟨results, hresults, -⟩ := Seed.parseTable_eq_ok_iff.1 hother
    obtain ⟨r, -, hread⟩ := exists_mem_of_forall₂ hresults hmem
    exact hrefused 0 r (hread 0)

/-- A seed whose surrounding space has the largest dimension there is.  The mapping of its face
has that dimension too, and one more dimension of the domain is refused. -/
theorem additions_exact_limit :
    Seed.parseTable "2 4294967293 1 1 h_div\n" = .ok [⟨2, 4294967293, 1, 1, .hDiv⟩] ∧
      (⟨1, 4294967294⟩ : Mapping) ∈
        (Catalogue.ofSeeds [⟨2, 4294967293, 1, 1, .hDiv⟩] ⟨3⟩).shapes.mappings ∧
      (⟨1, 4294967294⟩ : Mapping).spaceDim.toNat = 4294967295 ∧
      ∀ r, Seed.parseLine 1 "3 4294967293 1 1 h_div".toList ≠ .ok r := by
  have hparse : Seed.parseTable "2 4294967293 1 1 h_div\n" =
      .ok [⟨2, 4294967293, 1, 1, .hDiv⟩] := by
    decide +kernel
  obtain ⟨hsums, -, hrefused⟩ := additions_exact hparse ⟨3⟩
  have hmapping : (⟨1, 4294967294⟩ : Mapping) ∈
      (Catalogue.ofSeeds [⟨2, 4294967293, 1, 1, .hDiv⟩] ⟨3⟩).shapes.mappings := by
    refine Catalogue.mem_mappings.2 ⟨⟨1, 4294967294, 1, 1, .hDiv⟩, Catalogue.mem_all.2 ?_, rfl⟩
    exact .inr ⟨⟨2, 4294967293, 1, 1, .hDiv⟩, List.mem_cons_self, rfl⟩
  have hdim : Text.IsNumeral ['3'] (3 : UInt32).toNat := Text.word?_eq_some_iff.1 (by decide)
  have hcodim : Text.IsNumeral "4294967293".toList (4294967293 : UInt32).toNat :=
    Text.word?_eq_some_iff.1 (by decide +kernel)
  refine ⟨hparse, hmapping, (hsums _ _ _ (.mapping hmapping)).1, fun r => ?_⟩
  exact (hrefused _ _ _ _ _ _ _ (Text.trim_eq_iff.1 rfl) (Text.words_eq_iff.1 rfl) hdim hcodim
    (by decide)).1 1 r

end InstanceTables
