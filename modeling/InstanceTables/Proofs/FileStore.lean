import InstanceTables.FileStore

/-!
# Laws of the file store

A file that is created and appended to is put at its location (`append_of_create`), and
`put` changes what its location holds and nothing else.  Afterwards the path leads to the file
(`read_of_create`).  For this no name on the way may lead elsewhere than before, which is so
since the locations of files only become more: what is a directory stays one
(`isDirectory_put`).
-/

namespace InstanceTables.FileStore

variable {s : FileStore} {l : List String} {bytes : ByteArray}

theorem contents?_put_self (s : FileStore) (l : List String) (bytes : ByteArray) :
    (s.put l bytes).contents? l = some bytes := by
  simp [put, contents?]

/-- Other locations hold what they did. -/
theorem contents?_put_of_ne {other : List String} (h : other ≠ l) (bytes : ByteArray) :
    (s.put l bytes).contents? other = s.contents? other := by
  have hne : (other == l) = false := beq_false_of_ne h
  rw [contents?, put, List.lookup_cons, hne]
  change (s.files.filter (·.1 ≠ l)).lookup other = s.files.lookup other
  induction s.files with
  | nil => rfl
  | cons f files ih =>
    by_cases hf : f.1 = l
    · have hother : (other == f.1) = false := by rw [hf, hne]
      rw [List.filter_cons_of_neg (by simpa using hf), List.lookup_cons, hother, ih]
    · rw [List.filter_cons_of_pos (by simpa using hf), List.lookup_cons, List.lookup_cons, ih]

/-- Of two files at a location the later counts. -/
theorem put_put (s : FileStore) (l : List String) (bytes bytes' : ByteArray) :
    (s.put l bytes).put l bytes' = s.put l bytes' := by
  simp [put, List.filter_filter]

/-- What is a directory stays one. -/
theorem isDirectory_put {directory : List String} (h : s.isDirectory directory) :
    (s.put l bytes).isDirectory directory := by
  simp only [isDirectory, Bool.or_eq_true, List.any_eq_true, List.mem_append, List.mem_map] at h ⊢
  refine h.imp_right ?_
  rintro ⟨l', ⟨f, hf, rfl⟩ | hdevice, hprefix⟩
  · by_cases hl : f.1 = l
    · exact ⟨f.1, .inl ⟨(l, bytes), List.mem_cons_self, hl.symm⟩, hprefix⟩
    · have hmem : f ∈ s.files.filter (·.1 ≠ l) := List.mem_filter.2 ⟨hf, by simpa using hl⟩
      exact ⟨f.1, .inl ⟨f, List.mem_cons_of_mem _ hmem, rfl⟩, hprefix⟩
  · exact ⟨l', .inr hdevice, hprefix⟩

/-! ## What stands where -/

/-- A file that is created at the place stands at the location. -/
inductive Place.Offers (l : List String) : Place → Prop
  | vacant : Offers l (.vacant l)
  | file (contents : ByteArray) : Offers l (.file l contents)

theorem placeAt_put_self (s : FileStore) (l : List String) (bytes : ByteArray) :
    (s.put l bytes).placeAt l = .file l bytes := by
  rw [placeAt, contents?_put_self]

/-- A file stands at the location that the place was looked for at. -/
theorem eq_of_placeAt_offers {other : List String} (h : (s.placeAt other).Offers l) :
    other = l := by
  unfold placeAt at h
  split at h
  · cases h
    rfl
  · cases h
  · split at h
    · cases h
    · cases h
      rfl

theorem placeAt_eq_directory_iff {directory : List String} :
    s.placeAt directory = .directory ↔
      s.contents? directory = none ∧ devices.lookup directory = none ∧
        s.isDirectory directory := by
  unfold placeAt
  cases s.contents? directory with
  | some contents => simp
  | none =>
    cases devices.lookup directory with
    | some d => simp
    | none => cases h : s.isDirectory directory <;> simp

theorem placeAt_put_of_directory {directory : List String}
    (h : s.placeAt directory = .directory) (hl : s.placeAt l ≠ .directory) :
    (s.put l bytes).placeAt directory = .directory := by
  have hne : directory ≠ l := fun heq => hl (heq ▸ h)
  obtain ⟨hcontents, hdevice, hdirectory⟩ := placeAt_eq_directory_iff.1 h
  refine placeAt_eq_directory_iff.2 ⟨?_, hdevice, isDirectory_put hdirectory⟩
  rw [contents?_put_of_ne hne, hcontents]

variable {directory names : List String} {place : Place}

/-- A path that leads to a file or to nothing leads to what its location holds. -/
theorem placeAt_of_follow (h : s.follow directory names = .ok place) (hl : place.Offers l) :
    s.placeAt l = place := by
  induction names generalizing directory with
  | nil =>
    obtain rfl := Except.ok.inj h
    cases hl
  | cons name rest ih =>
    rw [follow] at h
    split at h
    · cases h
    · split at h
      · exact ih h
      · split at h
        · obtain rfl := Except.ok.inj h
          rw [eq_of_placeAt_offers hl]
        · cases h

/-- A path that leads to a location leads to the file that is put there. -/
theorem follow_put (h : s.follow directory names = .ok place) (hl : place.Offers l) :
    (s.put l bytes).follow directory names = .ok (.file l bytes) := by
  have hplace : s.placeAt l ≠ .directory := by
    rw [placeAt_of_follow h hl]
    rintro rfl
    cases hl
  induction names generalizing directory with
  | nil =>
    obtain rfl := Except.ok.inj h
    cases hl
  | cons name rest ih =>
    rw [follow] at h ⊢
    split at h
    · cases h
    · next hname =>
      rw [if_neg hname]
      split at h
      · next hdirectory =>
        rw [placeAt_put_of_directory hdirectory hplace]
        exact ih h
      · split at h
        · next hrest =>
          obtain rfl := Except.ok.inj h
          rw [eq_of_placeAt_offers hl, placeAt_put_self]
          simp only [hrest, if_true]
        · cases h

/-! ## Files that are created -/

variable {path : String} {s' : FileStore}

/-- A file is created, empty, at the location that the path leads to. -/
theorem exists_place_of_create (h : s.create path = .ok (.file l, s')) :
    (∃ place, s.placeToCreate path = .ok place ∧ place.Offers l) ∧ s' = s.put l .empty := by
  unfold create at h
  cases hplace : s.placeToCreate path with
  | error fault =>
    rw [hplace] at h
    cases h
  | ok place =>
    rw [hplace] at h
    cases place with
    | directory => cases h
    | device d => cases h
    | file location contents =>
      cases h
      exact ⟨⟨_, rfl, .file contents⟩, rfl⟩
    | vacant location =>
      cases h
      exact ⟨⟨_, rfl, .vacant⟩, rfl⟩

theorem create_of_handle (h : (s.create path).map Prod.fst = .ok (.file l)) :
    s.create path = .ok (.file l, s.put l .empty) := by
  cases hcreate : s.create path with
  | error fault =>
    rw [hcreate] at h
    nomatch h
  | ok opened =>
    obtain ⟨handle, created⟩ := opened
    rw [hcreate] at h
    obtain rfl : handle = .file l := Except.ok.inj h
    rw [(exists_place_of_create hcreate).2]

/-- A device is opened without a change to the files. -/
theorem eq_of_create_device {d : Device} (h : s.create path = .ok (.device d, s')) : s' = s := by
  unfold create at h
  cases hplace : s.placeToCreate path with
  | error fault =>
    rw [hplace] at h
    cases h
  | ok place =>
    rw [hplace] at h
    cases place <;> cases h
    rfl

/-- A file that has been created holds what is appended, and nothing of what it held before. -/
theorem append_of_create (h : s.create path = .ok (.file l, s')) (bytes : ByteArray) :
    s'.append bytes (.file l) = .ok (s.put l bytes) := by
  obtain ⟨-, rfl⟩ := exists_place_of_create h
  rw [append, contents?_put_self, put_put, Option.getD_some, ByteArray.empty_append]

/-- A path that leads to the location of a file that is created leads to the file. -/
theorem place_put (h : s.place path = .ok place) (hl : place.Offers l) :
    (s.put l bytes).place path = .ok (.file l bytes) := by
  unfold FileStore.place at h ⊢
  cases hpath : checkPath path with
  | error fault =>
    rw [hpath] at h
    cases h
  | ok u =>
    rw [hpath] at h
    exact follow_put h hl

theorem placeToCreate_eq_place (h : ¬ path.endsWith "/") :
    s.placeToCreate path = s.place path := by
  rw [placeToCreate, FileStore.place, if_neg h, if_neg h, List.append_nil]

/-- Reading a file decodes it. -/
theorem read_of_file {contents : ByteArray} (h : s.place path = .ok (.file l contents)) :
    s.read path =
      match String.fromUTF8? contents with
      | some text => .ok text
      | none => .error .notUtf8 := by
  rw [read, h]
  rfl

theorem fromUTF8?_toUTF8 (text : String) : String.fromUTF8? text.toUTF8 = some text := by
  unfold String.fromUTF8?
  exact dif_pos text.isValidUTF8

/-- The text that a created file holds is read at its path. -/
theorem read_of_create (h : s.create path = .ok (.file l, s')) (hslash : ¬ path.endsWith "/")
    (text : String) : (s.put l text.toUTF8).read path = .ok text := by
  obtain ⟨⟨place, hplace, hl⟩, -⟩ := exists_place_of_create h
  rw [placeToCreate_eq_place hslash] at hplace
  rw [read_of_file (place_put hplace hl), fromUTF8?_toUTF8]

/-- Of what the store holds, only the file at the location has changed, to the text.  The path
leads to it, except that nothing is said of a path that ends in a slash. -/
structure Replaces (before after : FileStore) (path : String) (l : List String) (text : String) :
    Prop where
  contents : after.contents? l = some text.toUTF8
  read : ¬ path.endsWith "/" → after.read path = .ok text
  others : ∀ other, other ≠ l → after.contents? other = before.contents? other
  printed : after.printed = before.printed

/-- A created file that a text is appended to is replaced by the text. -/
theorem replaces_of_create (h : s.create path = .ok (.file l, s')) (text : String) :
    Replaces s (s.put l text.toUTF8) path l text where
  contents := contents?_put_self _ _ _
  read hslash := read_of_create h hslash text
  others _ hother := contents?_put_of_ne hother _
  printed := rfl

/-- A device that has room takes every text, and no file is changed. -/
theorem exists_append_device {d : Device} (h : d ≠ .full) (s : FileStore) (bytes : ByteArray) :
    ∃ after, s.append bytes (.device d) = .ok after ∧ after.files = s.files := by
  cases d with
  | full => exact absurd rfl h
  | standardOutput => exact ⟨s.print bytes, rfl, rfl⟩
  | null | zero | standardError => exact ⟨s, rfl, rfl⟩

/-- A file that is no text is not read. -/
theorem read_of_not_utf8 {contents : ByteArray} (h : s.place path = .ok (.file l contents))
    (hcontents : String.fromUTF8? contents = none) : s.read path = .error .notUtf8 := by
  rw [read_of_file h, hcontents]

end InstanceTables.FileStore
