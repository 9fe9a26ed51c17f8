import InstanceTables.Proofs.Sink
import InstanceTables.Proofs.Writer.Text

/-!
# What a writer has sent

Whatever the capacity of its sink, the state of a writer follows from the text that it was to
send: `Writer.Sent` says that the sink holds the cut of that text, and that the declarations
counted are those whose lines end within it.  An action that is to send the lines of some
classes leads from one such state to another, and it succeeds if the text still fits or there
is no line to send (`Emit.Sends`).  This also covers an action that stops at the first line
that does not fit, since the lines behind it do not fit either.
-/

namespace InstanceTables

/-- The lines that declare the classes of the given names. -/
def classLines (names : List String) : String := String.join (names.map declarationLine)

/-- Where the lines of the classes end, if the first of them begins behind `start` bytes. -/
def lineEnds (start : Nat) : List String → List Nat
  | [] => []
  | name :: names =>
    let stop := start + (declarationLine name).utf8ByteSize
    stop :: lineEnds stop names

@[simp] theorem classLines_nil : classLines [] = "" := rfl

theorem classLines_cons (name : String) (names : List String) :
    classLines (name :: names) = declarationLine name ++ classLines names := by
  simp [classLines]

theorem classLines_append (names more : List String) :
    classLines (names ++ more) = classLines names ++ classLines more := by
  simp [classLines]

theorem declarationLine_ne_empty (name : String) : declarationLine name ≠ "" := by
  unfold declarationLine
  simp

/-- Every line takes up room. -/
theorem utf8ByteSize_declarationLine_pos (name : String) :
    0 < (declarationLine name).utf8ByteSize := by
  rw [Nat.pos_iff_ne_zero, ne_eq, String.utf8ByteSize_eq_zero_iff]
  exact declarationLine_ne_empty name

/-- Where there are classes there are lines. -/
theorem utf8ByteSize_classLines_eq_zero_iff {names : List String} :
    (classLines names).utf8ByteSize = 0 ↔ names = [] := by
  cases names with
  | nil => simp
  | cons name names =>
    have := utf8ByteSize_declarationLine_pos name
    rw [classLines_cons, String.utf8ByteSize_append]
    simp only [reduceCtorEq, iff_false]
    omega

theorem length_lineEnds (start : Nat) (names : List String) :
    (lineEnds start names).length = names.length := by
  induction names generalizing start with
  | nil => rfl
  | cons name names ih => rw [lineEnds, List.length_cons, ih, List.length_cons]

theorem lineEnds_append (start : Nat) (names more : List String) :
    lineEnds start (names ++ more) =
      lineEnds start names ++ lineEnds (start + (classLines names).utf8ByteSize) more := by
  induction names generalizing start with
  | nil => rfl
  | cons name names ih =>
    rw [List.cons_append, lineEnds, ih, lineEnds, classLines_cons, String.utf8ByteSize_append,
      Nat.add_assoc]
    rfl

/-- The lines end within their text, and none of them where the text begins. -/
theorem mem_lineEnds_bounds {start stop : Nat} {names : List String}
    (h : stop ∈ lineEnds start names) :
    start < stop ∧ stop ≤ start + (classLines names).utf8ByteSize := by
  induction names generalizing start with
  | nil => simp [lineEnds] at h
  | cons name names ih =>
    have hpos := utf8ByteSize_declarationLine_pos name
    rw [classLines_cons, String.utf8ByteSize_append]
    rcases List.mem_cons.1 h with rfl | h
    · omega
    · have := ih h
      omega

/-- If a text fits, so does the part of it before some of its lines. -/
theorem fits_of_fits_append {capacity : Option Nat} {head : String} {names more : List String}
    (h : Sink.fits capacity (head ++ classLines (names ++ more)).utf8ByteSize) :
    Sink.fits capacity (head ++ classLines names).utf8ByteSize := by
  refine Sink.fits_of_le ?_ h
  simp only [classLines_append, String.utf8ByteSize_append]
  omega

/-- The lines that end within a text, and before a limit, are those of the text that end before
the limit. -/
theorem countP_lineEnds_append (c start : Nat) (names more : List String) :
    (lineEnds start (names ++ more)).countP
        (· ≤ min c (start + (classLines names).utf8ByteSize)) =
      (lineEnds start names).countP (· ≤ c) := by
  rw [lineEnds_append, List.countP_append]
  have hmore : (lineEnds (start + (classLines names).utf8ByteSize) more).countP
      (· ≤ min c (start + (classLines names).utf8ByteSize)) = 0 := by
    rw [List.countP_eq_zero]
    intro stop hstop
    have := (mem_lineEnds_bounds hstop).1
    rw [decide_eq_true_eq]
    omega
  rw [hmore, Nat.add_zero]
  refine List.countP_congr fun stop hstop => ?_
  have := (mem_lineEnds_bounds hstop).2
  simp only [decide_eq_true_eq]
  omega

/-! ## States -/

/-- The writer was to send the text `head` and then the lines of the classes. -/
structure Writer.Sent (w : Writer) (capacity : Option Nat) (head : String)
    (names : List String) (flushes : Nat) : Prop where
  capacity_eq : w.sink.capacity = capacity
  /-- The sink holds the cut of the text. -/
  bytes_eq : w.sink.bytes = Sink.cut capacity (head ++ classLines names).toUTF8
  /-- The declarations counted are those whose lines the sink has taken whole. -/
  declared_eq : w.declared = (lineEnds head.utf8ByteSize names).countP (Sink.fits capacity)
  flushes_eq : w.sink.flushes = flushes

namespace Writer.Sent

variable {w : Writer} {capacity : Option Nat} {head : String} {names more : List String}
  {flushes : Nat}

/-- If the text fits, every declaration is counted. -/
theorem declared_of_fits (h : w.Sent capacity head names flushes)
    (hfits : Sink.fits capacity (head ++ classLines names).utf8ByteSize) :
    w.declared = names.length := by
  rw [h.declared_eq, ← length_lineEnds head.utf8ByteSize names, List.countP_eq_length]
  intro stop hstop
  refine Sink.fits_of_le ?_ hfits
  rw [String.utf8ByteSize_append]
  exact (mem_lineEnds_bounds hstop).2

/-- Once the text does not fit, more of it makes no difference. -/
theorem append_of_not_fits (h : w.Sent capacity head names flushes)
    (hfits : ¬ Sink.fits capacity (head ++ classLines names).utf8ByteSize) (more : List String) :
    w.Sent capacity head (names ++ more) flushes where
  capacity_eq := h.capacity_eq
  bytes_eq := by
    rw [h.bytes_eq, classLines_append, ← String.append_assoc]
    exact (Sink.cut_append_of_not_fits hfits).symm
  declared_eq := by
    have hmore : (lineEnds (head.utf8ByteSize + (classLines names).utf8ByteSize) more).countP
        (Sink.fits capacity) = 0 := by
      rw [List.countP_eq_zero]
      intro stop hstop hstopFits
      refine hfits (Sink.fits_of_le ?_ hstopFits)
      rw [String.utf8ByteSize_append]
      exact Nat.le_of_lt (mem_lineEnds_bounds hstop).1
    rw [h.declared_eq, lineEnds_append, List.countP_append, hmore, Nat.add_zero]
  flushes_eq := h.flushes_eq

/-- The log has no part in what is sent. -/
theorem log (h : w.Sent capacity head names flushes) (events : List Event) :
    (w.extend [] events).Sent capacity head names flushes where
  capacity_eq := h.capacity_eq
  bytes_eq := by simpa [Writer.extend] using h.bytes_eq
  declared_eq := h.declared_eq
  flushes_eq := h.flushes_eq

end Writer.Sent

/-! ## Actions -/

/-- The lines of `names` are taken behind those of `before`: there is none, or the text with
them fits. -/
def Taken (capacity : Option Nat) (head : String) (before names : List String) : Prop :=
  names = [] ∨ Sink.fits capacity (head ++ classLines (before ++ names)).utf8ByteSize

instance (capacity : Option Nat) (head : String) (before names : List String) :
    Decidable (Taken capacity head before names) :=
  inferInstanceAs (Decidable (_ ∨ _))

theorem taken_nil (capacity : Option Nat) (head : String) (before : List String) :
    Taken capacity head before [] := Or.inl rfl

/-- A sink that is never full takes every line. -/
theorem taken_none (head : String) (before names : List String) :
    Taken none head before names := Or.inr rfl

theorem taken_of_ne_nil_iff {capacity : Option Nat} {head : String} {before names : List String}
    (h : names ≠ []) :
    Taken capacity head before names ↔
      Sink.fits capacity (head ++ classLines (before ++ names)).utf8ByteSize :=
  or_iff_right h

/-- Lines that need no room are none. -/
theorem taken_some_iff {c : Nat} {head : String} {before names : List String} :
    Taken (some c) head before names ↔
      (head ++ classLines (before ++ names)).utf8ByteSize ≤ c ∨
        (head ++ classLines (before ++ names)).utf8ByteSize =
          (head ++ classLines before).utf8ByteSize := by
  have hnames : (head ++ classLines (before ++ names)).utf8ByteSize =
      (head ++ classLines before).utf8ByteSize ↔ names = [] := by
    rw [← utf8ByteSize_classLines_eq_zero_iff]
    simp only [classLines_append, String.utf8ByteSize_append]
    omega
  rw [hnames, Taken, Sink.fits_some, decide_eq_true_eq]
  exact or_comm

/-- Lines are taken together if and only if they are taken in turn. -/
theorem taken_append {capacity : Option Nat} {head : String} {before names more : List String} :
    Taken capacity head before (names ++ more) ↔
      Taken capacity head before names ∧ Taken capacity head (before ++ names) more := by
  constructor
  · rintro (h | h)
    · obtain ⟨rfl, rfl⟩ := List.append_eq_nil_iff.1 h
      exact ⟨Or.inl rfl, Or.inl rfl⟩
    · rw [← List.append_assoc] at h
      exact ⟨Or.inr (fits_of_fits_append h), Or.inr h⟩
  · rintro ⟨h, rfl | h'⟩
    · rwa [List.append_nil]
    · rw [List.append_assoc] at h'
      exact Or.inr h'

/-- Lines that are taken are counted. -/
theorem Writer.Sent.declared_sub {w w' : Writer} {capacity : Option Nat} {head : String}
    {before names : List String} {flushes flushes' : Nat}
    (h' : w'.Sent capacity head (before ++ names) flushes')
    (h : w.Sent capacity head before flushes) (htaken : Taken capacity head before names) :
    w'.declared - w.declared = names.length := by
  rcases htaken with rfl | hfits
  · rw [List.append_nil] at h'
    rw [h'.declared_eq, h.declared_eq, Nat.sub_self, List.length_nil]
  · rw [h'.declared_of_fits hfits, h.declared_of_fits (fits_of_fits_append hfits),
      List.length_append, Nat.add_sub_cancel_left]

namespace Emit

variable {α β : Type}

/-- The action is to send the lines of the classes.  It returns `a` if they are taken. -/
def Sends (x : Emit α) (names : List String) (a : α) : Prop :=
  ∀ ⦃w : Writer⦄ ⦃capacity head before flushes⦄, w.Sent capacity head before flushes →
    (x.run.run w).1 = (if Taken capacity head before names then .ok a else .error .full) ∧
    (x.run.run w).2.Sent capacity head (before ++ names) flushes

theorem sends_pure (a : α) : (pure a : Emit α).Sends [] a := by
  intro w capacity head before flushes h
  rw [List.append_nil, if_pos (taken_nil _ _ _)]
  exact ⟨rfl, h⟩

/-- An action that fails is not followed by the next one. -/
theorem run_bind_of_error {x : Emit α} {k : α → Emit β} {e : SinkFault} {w w' : Writer}
    (h : x.run.run w = (.error e, w')) : (x >>= k).run.run w = (.error e, w') := by
  rw [ExceptT.run_bind, StateT.run_bind, h]
  rfl

/-- Actions that follow one another send their lines one after the other. -/
theorem Sends.bind {x : Emit α} {k : α → Emit β} {names more : List String} {a : α} {b : β}
    (hx : x.Sends names a) (hk : (k a).Sends more b) : (x >>= k).Sends (names ++ more) b := by
  intro w capacity head before flushes h
  obtain ⟨hresult, hsent⟩ := hx h
  simp only [taken_append, ← List.append_assoc]
  by_cases htaken : Taken capacity head before names
  · rw [if_pos htaken] at hresult
    have hrun : (x >>= k).run.run w = (k a).run.run (x.run.run w).2 :=
      run_bind_of_ok (Prod.ext hresult rfl)
    rw [hrun]
    simpa only [htaken, true_and] using hk hsent
  · -- the text is already too long, so that the lines behind make no difference
    rw [if_neg htaken] at hresult
    have hrun : (x >>= k).run.run w = (.error .full, (x.run.run w).2) :=
      run_bind_of_error (Prod.ext hresult rfl)
    rw [hrun, if_neg fun hboth => htaken hboth.1]
    exact ⟨rfl, hsent.append_of_not_fits (fun hfits => htaken (Or.inr hfits)) more⟩

/-- What an action returns may be changed behind it. -/
theorem Sends.bind_pure {x : Emit α} {names : List String} {a : α} (hx : x.Sends names a)
    (f : α → β) : (x >>= fun a => pure (f a)).Sends names (f a) := by
  have h : (x >>= fun a => pure (f a)).Sends (names ++ []) (f a) := hx.bind (sends_pure (f a))
  rwa [List.append_nil] at h

/-- A line is sent in one piece. -/
theorem sends_declareName (name : String) : (declareName name).Sends [name] () := by
  intro w capacity head before flushes h
  have hbytes : w.sink.bytes = Sink.cut w.sink.capacity (head ++ classLines before).toUTF8 := by
    rw [h.capacity_eq, h.bytes_eq]
  have htext : head ++ classLines before ++ declarationLine name =
      head ++ classLines (before ++ [name]) := by
    simp [classLines_append, classLines_cons, String.append_assoc]
  have hends : lineEnds head.utf8ByteSize (before ++ [name]) =
      lineEnds head.utf8ByteSize before ++
        [(head ++ classLines (before ++ [name])).utf8ByteSize] := by
    rw [lineEnds_append, ← htext]
    simp [lineEnds, String.utf8ByteSize_append]
  have hwrite := Sink.write_of_cut hbytes (declarationLine_ne_empty name)
  rw [htext, h.capacity_eq] at hwrite
  rw [run_declareName, hwrite]
  simp only [taken_of_ne_nil_iff (List.cons_ne_nil name [])]
  by_cases hfits : Sink.fits capacity (head ++ classLines (before ++ [name])).utf8ByteSize
  · simp only [if_pos hfits]
    refine ⟨trivial, rfl, rfl, ?_, h.flushes_eq⟩
    rw [hends, List.countP_append, ← h.declared_eq, List.countP_singleton, if_pos hfits]
  · simp only [if_neg hfits]
    refine ⟨trivial, rfl, rfl, ?_, h.flushes_eq⟩
    rw [hends, List.countP_append, ← h.declared_eq, List.countP_singleton, if_neg hfits]
    rfl

/-- Lines are sent in turn. -/
theorem sends_forM_declareName (names : List String) :
    Sends (names.forM declareName) names () := by
  induction names with
  | nil => exact sends_pure ()
  | cons name names ih =>
    change (declareName name >>= fun _ => names.forM declareName).Sends ([name] ++ names) ()
    exact (sends_declareName name).bind ih

theorem sends_declareAll (ds : List Declaration) :
    (declareAll ds).Sends (ds.map spell) () := by
  have h := sends_forM_declareName (ds.map spell)
  rwa [List.forM_eq_forM, List.forM_map] at h

/-- A family sends the lines of its declarations, and returns how many there are. -/
theorem sends_declareFamily (c : Catalogue) (f : Family) :
    (declareFamily c f).Sends ((f.declarations c).map spell) (f.declarations c).length := by
  intro w capacity head before flushes h
  obtain ⟨hresult, hsent⟩ := sends_declareAll (f.declarations c) h
  have hget (v : Writer) : (get : Emit Writer).run.run v = (.ok v, v) := rfl
  rw [declareFamily, run_bind_of_ok (hget w)]
  by_cases htaken : Taken capacity head before ((f.declarations c).map spell)
  · rw [if_pos htaken] at hresult ⊢
    have hcount := hsent.declared_sub h htaken
    rw [List.length_map] at hcount
    rw [run_bind_of_ok (Prod.ext hresult rfl), run_bind_of_ok (hget _), hcount,
      run_bind_of_ok (run_record _)]
    exact ⟨rfl, hsent.log _⟩
  · rw [if_neg htaken] at hresult ⊢
    rw [run_bind_of_error (Prod.ext hresult rfl)]
    exact ⟨rfl, hsent⟩

/-- The families of a list send the lines of their declarations one after the other. -/
theorem sends_foldlM_declareFamily (c : Catalogue) (fs : List Family) (n : Nat) :
    (fs.foldlM (fun n f => return n + (← declareFamily c f)) n : Emit Nat).Sends
      ((fs.flatMap (Family.declarations c)).map spell)
      (n + (fs.flatMap (Family.declarations c)).length) := by
  induction fs generalizing n with
  | nil => exact sends_pure n
  | cons f fs ih =>
    rw [List.foldlM_cons, List.flatMap_cons, List.map_append, List.length_append, ← Nat.add_assoc]
    exact ((sends_declareFamily c f).bind_pure (n + ·)).bind (ih (n + (f.declarations c).length))

/-- A selection sends the lines of its declarations, and returns how many there are. -/
theorem sends_declareFamilies (c : Catalogue) (selected : List Family) :
    (declareFamilies c selected).Sends ((c.declarations selected).map spell)
      (c.declarations selected).length := by
  have h := sends_foldlM_declareFamily c (distinct selected) 0
  rwa [Nat.zero_add] at h

end Emit

end InstanceTables
