import InstanceTables.Proofs.Writer.Sent
import InstanceTables.Writer.Session

/-!
# Sessions on a sink of limited size

The steps of a session send the lines of some classes, whatever the capacity of the sink
(`Step.run_of_sent`), and so does the session as a whole (`sent_run`).  The session on a sink
that never becomes full is the case of no capacity.  What a limited sink holds after some steps
is therefore the beginning of the text that the same session sends to a sink without a limit
(`bytes_writerAfter`), and the declarations counted are the lines in it (`declared_writerAfter`).
-/

namespace InstanceTables.Session

namespace Step

/-- The names of the classes that the step declares, in turn. -/
def classNames : Step → List String
  | declare className => [className]
  | declareAll classNames => classNames
  | family c f => (f.declarations c).map spell
  | families c selected => (c.declarations selected).map spell
  | flush => []

def isFlush : Step → Bool
  | flush => true
  | _ => false

/-- What the step returns if it succeeds and the sink has been flushed so often before. -/
def returned (flushed : Nat) : Step → Result
  | declare _ | declareAll _ => .done
  | family c f => .written (f.declarations c).length
  | families c selected => .written (c.declarations selected).length
  | flush => .flushed (flushed + 1)

variable {w : Writer} {capacity : Option Nat} {head : String} {before : List String}
  {flushed : Nat}

/-- A step sends the lines of its classes, and succeeds if they are taken. -/
theorem run_of_sent (step : Step) (h : w.Sent capacity head before flushed) :
    (step.run.run.run w).1 =
      (if Taken capacity head before step.classNames then .ok (step.returned flushed)
        else .error .full) ∧
    (step.run.run.run w).2.Sent capacity head (before ++ step.classNames)
      (flushed + if step.isFlush then 1 else 0) := by
  cases step with
  | declare className => exact (Emit.sends_declareName className).bind_pure (fun _ => Result.done) h
  | declareAll classNames =>
    exact (Emit.sends_forM_declareName classNames).bind_pure (fun _ => Result.done) h
  | family c f => exact (Emit.sends_declareFamily c f).bind_pure Result.written h
  | families c selected => exact (Emit.sends_declareFamilies c selected).bind_pure Result.written h
  | flush =>
    rw [classNames, List.append_nil, if_pos (taken_nil _ _ _), returned, ← h.flushes_eq]
    exact ⟨rfl, h.capacity_eq, h.bytes_eq, h.declared_eq, rfl⟩

end Step

/-! ## Runs -/

theorem run_nil (w : Writer) : (run []).run w = ([], w) := rfl

/-- The steps behind the first one are carried out on the writer that it leaves. -/
theorem run_cons (step : Step) (steps : List Step) (w : Writer) :
    (run (step :: steps)).run w =
      ((step.act.run w).1 :: ((run steps).run (step.act.run w).2).1,
        ((run steps).run (step.act.run w).2).2) := by
  rw [run, List.mapM_cons]
  rfl

/-- A session sends the lines of the classes of its steps. -/
theorem sent_run {w : Writer} {capacity : Option Nat} {head : String} {before : List String}
    {flushed : Nat} (h : w.Sent capacity head before flushed) (steps : List Step) :
    ((run steps).run w).2.Sent capacity head (before ++ steps.flatMap Step.classNames)
      (flushed + steps.countP Step.isFlush) := by
  induction steps generalizing w before flushed with
  | nil => rwa [run_nil, List.flatMap_nil, List.append_nil]
  | cons step steps ih =>
    rw [run_cons, List.flatMap_cons, List.countP_cons, ← List.append_assoc, ← Nat.add_assoc,
      Nat.add_right_comm]
    exact ih (step.run_of_sent h).2

/-- What comes of a step is what comes of it on the writer that the steps before it leave. -/
theorem getElem?_run (steps : List Step) (w : Writer) (i : Nat) :
    ((run steps).run w).1[i]? =
      steps[i]?.map fun step => (step.act.run ((run (steps.take i)).run w).2).1 := by
  induction steps generalizing w i with
  | nil => rw [run_nil, List.getElem?_nil, List.getElem?_nil, Option.map_none]
  | cons step steps ih =>
    cases i with
    | zero => simp [run_cons, run_nil]
    | succ i => simp [run_cons, ih]

/-! ## Sessions -/

variable (generator : String) (capacity : Option Nat) (steps : List Step)

/-- The writer of a session, after the first `i` steps of it. -/
def writerAfter (i : Nat) : Writer :=
  ((run (steps.take i)).run (Writer.start generator { capacity }).2).2

/-- What comes of each step of a session. -/
def items : List Item := ((run steps).run (Writer.start generator { capacity }).2).1

/-- What the session sends to a sink that is never full. -/
def fullText : ByteArray := (writerAfter generator none steps steps.length).sink.bytes

/-- How much of that has been sent after the first `i` steps. -/
def sentSize (i : Nat) : Nat := (writerAfter generator none steps i).sink.bytes.size

/-- A new writer sends the header. -/
theorem start_eq :
    Writer.start generator { capacity } =
      (if Sink.fits capacity (header generator).utf8ByteSize then .ok () else .error .full,
        { sink := { capacity, bytes := Sink.cut capacity (header generator).toUTF8 } }) := by
  have hempty : ({ capacity } : Sink).bytes = Sink.cut capacity "".toUTF8 :=
    (Sink.cut_empty capacity).symm
  have hheader : header generator ≠ "" := by
    intro h
    obtain ⟨text, htext⟩ := exists_toList_header generator
    rw [h] at htext
    simp at htext
  have hwrite := Sink.write_of_cut hempty hheader
  rw [String.empty_append] at hwrite
  rw [Writer.start, Emit.run_send, hwrite]

/-- After some of its steps, a session has sent the header and the lines of these steps. -/
theorem sent_writerAfter (i : Nat) :
    (writerAfter generator capacity steps i).Sent capacity (header generator)
      ((steps.take i).flatMap Step.classNames) ((steps.take i).countP Step.isFlush) := by
  have hstart : (Writer.start generator { capacity }).2.Sent capacity (header generator) [] 0 := by
    rw [start_eq]
    refine ⟨rfl, ?_, rfl, rfl⟩
    rw [classLines_nil, String.append_empty]
  have hrun := sent_run hstart (steps.take i)
  rwa [List.nil_append, Nat.zero_add] at hrun

theorem fullText_eq :
    fullText generator steps =
      (header generator ++ classLines (steps.flatMap Step.classNames)).toUTF8 := by
  have h := (sent_writerAfter generator none steps steps.length).bytes_eq
  rwa [List.take_length] at h

theorem sentSize_eq (i : Nat) :
    sentSize generator steps i =
      (header generator ++ classLines ((steps.take i).flatMap Step.classNames)).utf8ByteSize := by
  rw [sentSize, (sent_writerAfter generator none steps i).bytes_eq]
  rfl

theorem sentSize_zero : sentSize generator steps 0 = (header generator).utf8ByteSize := by
  rw [sentSize_eq, List.take_zero, List.flatMap_nil, classLines_nil, String.append_empty]

/-- The classes of the first steps come before those of the others. -/
theorem flatMap_take_append_drop (i : Nat) :
    (steps.take i).flatMap Step.classNames ++ (steps.drop i).flatMap Step.classNames =
      steps.flatMap Step.classNames := by
  rw [← List.flatMap_append, List.take_append_drop]

/-- What the sink of a session holds is the beginning of the full text. -/
theorem bytes_writerAfter (c i : Nat) :
    (writerAfter generator (some c) steps i).sink.bytes =
      (fullText generator steps).extract 0 (min c (sentSize generator steps i)) := by
  rw [(sent_writerAfter generator (some c) steps i).bytes_eq, fullText_eq,
    ← flatMap_take_append_drop steps i, classLines_append, ← String.append_assoc, sentSize_eq]
  generalize header generator ++ classLines ((steps.take i).flatMap Step.classNames) = text
  exact (Sink.extract_append_min c).symm

/-- What the writer of a session counts are the lines that its sink holds. -/
theorem declared_writerAfter (c i : Nat) :
    (writerAfter generator (some c) steps i).declared =
      (lineEnds (sentSize generator steps 0) (steps.flatMap Step.classNames)).countP
        (· ≤ min c (sentSize generator steps i)) := by
  rw [(sent_writerAfter generator (some c) steps i).declared_eq, sentSize_zero, sentSize_eq,
    ← flatMap_take_append_drop steps i, String.utf8ByteSize_append, countP_lineEnds_append]
  rfl

/-- One step more sends the lines of its classes. -/
theorem flatMap_take_add_one {i : Nat} {step : Step} (h : steps[i]? = some step) :
    (steps.take (i + 1)).flatMap Step.classNames =
      (steps.take i).flatMap Step.classNames ++ step.classNames := by
  rw [List.take_add_one, h, List.flatMap_append, Option.toList_some, List.flatMap_singleton]

/-- The lines of a step are taken if the text up to the end of the step fits, or if the step
sends nothing. -/
theorem taken_iff {i : Nat} {step : Step} (h : steps[i]? = some step) (c : Nat) :
    Taken (some c) (header generator) ((steps.take i).flatMap Step.classNames) step.classNames ↔
      sentSize generator steps (i + 1) ≤ c ∨
        sentSize generator steps (i + 1) = sentSize generator steps i := by
  rw [taken_some_iff, sentSize_eq, sentSize_eq, flatMap_take_add_one steps h]

/-- What comes of a step: it returns what it should if its lines are taken, and fails if not. -/
theorem exists_item {i : Nat} {step : Step} (h : steps[i]? = some step) :
    ∃ x, (items generator capacity steps)[i]? = some x ∧
      (∀ r, x.result = .ok r ↔
        Taken capacity (header generator) ((steps.take i).flatMap Step.classNames)
          step.classNames ∧ step.returned ((steps.take i).countP Step.isFlush) = r) ∧
      x.declared = (writerAfter generator capacity steps (i + 1)).declared := by
  obtain ⟨hresult, hsent⟩ := step.run_of_sent (sent_writerAfter generator capacity steps i)
  refine ⟨(step.act.run (writerAfter generator capacity steps i)).1, ?_, ?_, ?_⟩
  · rw [items, getElem?_run, h]
    rfl
  · intro r
    change (step.run.run.run (writerAfter generator capacity steps i)).1 = .ok r ↔ _
    rw [hresult]
    split <;> simp [*]
  · rw [(sent_writerAfter generator capacity steps (i + 1)).declared_eq,
      flatMap_take_add_one steps h]
    exact hsent.declared_eq

/-- A session on a sink of limited size sees the beginning of the text that it would send to a
sink that is never full.  A step succeeds if the text up to the end of the step fits, or if the
step sends nothing, and then it returns what it would return on a sink that is never full.  The
declarations counted are those whose lines, line feed included, lie in what the sink holds. -/
theorem limited_session (generator : String) (c : Nat) (steps : List Step) :
    fullText generator steps =
      (header generator ++ classLines (steps.flatMap Step.classNames)).toUTF8 ∧
    sentSize generator steps 0 = (header generator).utf8ByteSize ∧
    ((Writer.start generator { capacity := some c }).1 = .ok () ↔
      sentSize generator steps 0 ≤ c) ∧
    (Writer.start generator { capacity := some c }).2.sink.bytes =
      (header generator).toUTF8.extract 0 c ∧
    (sentSize generator steps 0 ≤ c →
      (∀ i, (writerAfter generator (some c) steps i).sink.bytes =
          (fullText generator steps).extract 0 (min c (sentSize generator steps i)) ∧
        (writerAfter generator (some c) steps i).declared =
          (lineEnds (sentSize generator steps 0) (steps.flatMap Step.classNames)).countP
            (· ≤ min c (sentSize generator steps i))) ∧
      ∀ i < steps.length, ∃ x y, (items generator (some c) steps)[i]? = some x ∧
        (items generator none steps)[i]? = some y ∧
        ((∃ r, x.result = .ok r) ↔ sentSize generator steps (i + 1) ≤ c ∨
          sentSize generator steps (i + 1) = sentSize generator steps i) ∧
        (∀ r, x.result = .ok r → y.result = .ok r) ∧
        x.declared = (writerAfter generator (some c) steps (i + 1)).declared) := by
  refine ⟨fullText_eq _ _, sentSize_zero _ _, ?_, ?_, fun _ => ⟨fun i => ?_, fun i hi => ?_⟩⟩
  · rw [start_eq, sentSize_zero, Sink.fits_some]
    simp
  · rw [start_eq]
    rfl
  · exact ⟨bytes_writerAfter generator steps c i, declared_writerAfter generator steps c i⟩
  · have hstep := List.getElem?_eq_getElem hi
    obtain ⟨x, hx, hok, hdeclared⟩ := exists_item generator (some c) steps hstep
    obtain ⟨y, hy, hok', -⟩ := exists_item generator none steps hstep
    refine ⟨x, y, hx, hy, ?_, ?_, hdeclared⟩
    · rw [← taken_iff generator steps hstep]
      simp only [hok, exists_and_left, exists_eq', and_true]
    · intro r hr
      exact (hok' r).2 ⟨taken_none _ _ _, ((hok r).1 hr).2⟩

/-- The line of `C` is cut short.  Flushing still works, and the writer goes on counting. -/
example :
    (items "g" (some 130) [.declare "A", .declareAll ["B", "C"], .flush, .declare "D"]).map
      (fun x => (x.result.toOption, x.declared)) =
        [(some .done, 1), (none, 2), (some (.flushed 1), 2), (none, 2)] := by
  decide +kernel

end InstanceTables.Session
