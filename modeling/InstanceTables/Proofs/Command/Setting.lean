import InstanceTables.Command.Scan
import InstanceTables.Proofs.Text.Integer
import Mathlib.Data.List.Basic

/-!
# Settings of a command line

A setting gives an option a value.  Taking settings over one by one either meets an option that
has a value already, and then ends with a repeated option, or leaves a draft that shows every
setting.  Families are the exception: they may come up any number of times, and are kept in their
order.  `Draft.fresh_cons_iff` carries both cases along a list of settings.
-/

namespace InstanceTables.Command

/-- An option of `generate` with its value. -/
inductive Setting where
  | configFile (path : String)
  | maxOrder (order : Int)
  | outFile (path : String)
  | family (f : Family)
  | generator (name : String)
deriving DecidableEq, Repr

namespace Setting

def option : Setting → CommandOption
  | configFile _ => .configFile
  | maxOrder _ => .maxOrder
  | outFile _ => .outFile
  | family _ => .family
  | generator _ => .generator

/-- The value as a text; the order is written in decimal. -/
def text : Setting → String
  | configFile path => path
  | maxOrder n => toString n
  | outFile path => path
  | family f => f.name
  | generator name => name

/-- Paths are not empty, and orders have 64 bits. -/
def Valid : Setting → Prop
  | configFile path => path ≠ ""
  | maxOrder n => -Text.integerLimit ≤ n ∧ n < Text.integerLimit
  | outFile path => path ≠ ""
  | family _ => True
  | generator _ => True

def family? : Setting → Option Family
  | family f => some f
  | _ => none

end Setting

namespace Draft

variable {d : Draft} {s t : Setting} {settings : List Setting} {o : CommandOption}

/-- The draft with the value of the setting. -/
def set (d : Draft) : Setting → Draft
  | .configFile path => { d with configFile := some path }
  | .maxOrder n => { d with maxOrder := some n }
  | .outFile path => { d with outFile := some path }
  | .family f => { d with families := d.families.push f }
  | .generator name => { d with generator := some name }

/-- Checks the values of the settings one by one and takes them over. -/
def storeAll (d : Draft) (settings : List Setting) : Except Usage Draft :=
  settings.foldlM (fun d s => d.store s.option s.text.toList) d

/-- No setting gives an option that has a value, be it in the draft or by an earlier setting. -/
structure Fresh (d : Draft) (settings : List Setting) : Prop where
  untaken : ∀ s ∈ settings, d.isTaken s.option = false
  once : settings.Pairwise fun s t => s.option = t.option → s.option = .family

/-- The draft has the value of the setting. -/
def Shows (d : Draft) : Setting → Prop
  | .configFile path => d.configFile = some path
  | .maxOrder n => d.maxOrder = some n
  | .outFile path => d.outFile = some path
  | .family f => f ∈ d.families
  | .generator name => d.generator = some name

theorem path_of_ne_empty {path : String} (h : path ≠ "") : Draft.path path.toList = .ok path := by
  have hne : path.toList.isEmpty = false := by
    rw [List.isEmpty_eq_false_iff]
    exact fun hnil => h (String.toList_eq_nil_iff.1 hnil)
  rw [Draft.path, hne, String.ofList_toList]
  rfl

/-- An option that has a value is not given another, whatever that is. -/
theorem store_of_isTaken (h : d.isTaken o) (value : List Char) :
    d.store o value = .error .repeatedOption := by
  cases o with
  | family => exact absurd h Bool.false_ne_true
  | _ =>
    simp only [store, h, if_true]
    rfl

/-- A valid value is taken over if the option has none. -/
theorem store_of_valid (hs : s.Valid) (h : d.isTaken s.option = false) :
    d.store s.option s.text.toList = .ok (d.set s) := by
  cases s with
  | configFile path =>
    simp only [store, Setting.option, Setting.text, path_of_ne_empty hs] at h ⊢
    rw [h]
    rfl
  | maxOrder n =>
    simp only [store, Setting.option, Setting.text, Text.integer64?_toString hs.1 hs.2] at h ⊢
    rw [h]
    rfl
  | outFile path =>
    simp only [store, Setting.option, Setting.text, path_of_ne_empty hs] at h ⊢
    rw [h]
    rfl
  | family f =>
    simp only [store, Setting.option, Setting.text, String.ofList_toList,
      Family.parse_name] at h ⊢
    rw [h]
    rfl
  | generator name =>
    simp only [store, Setting.option, Setting.text, String.ofList_toList] at h ⊢
    rw [h]
    rfl

/-- A setting takes its own option, unless that is a family, and no other. -/
theorem isTaken_set (d : Draft) (s : Setting) (o : CommandOption) :
    (d.set s).isTaken o ↔ d.isTaken o ∨ s.option = o ∧ o ≠ .family := by
  cases s <;> cases o <;> simp [set, isTaken, Setting.option]

theorem shows_set (d : Draft) (s : Setting) : (d.set s).Shows s := by
  cases s <;> simp [set, Shows]

/-- What the draft shows is not overwritten by a setting of another option. -/
theorem Shows.set (h : d.Shows s) (hne : t.option = s.option → t.option = .family) :
    (d.set t).Shows s := by
  cases s <;> cases t <;> simp_all [Draft.set, Shows, Setting.option]

theorem families_set (d : Draft) (s : Setting) :
    (d.set s).families.toList = d.families.toList ++ s.family?.toList := by
  cases s <;> simp [set, Setting.family?]

/-! ## Any number of settings -/

theorem fresh_nil (d : Draft) : d.Fresh [] := ⟨fun _ h => absurd h List.not_mem_nil, .nil⟩

/-- Settings are fresh if the first one is and the others are so after it. -/
theorem fresh_cons_iff :
    d.Fresh (s :: settings) ↔ d.isTaken s.option = false ∧ (d.set s).Fresh settings := by
  constructor
  · rintro ⟨huntaken, honce⟩
    obtain ⟨hs, honce⟩ := List.pairwise_cons.1 honce
    refine ⟨huntaken s List.mem_cons_self, fun t ht => ?_, honce⟩
    rw [Bool.eq_false_iff, Ne, isTaken_set, not_or, not_and_not_right,
      huntaken t (List.mem_cons_of_mem _ ht)]
    exact ⟨Bool.false_ne_true, fun heq => heq ▸ hs t ht heq⟩
  · rintro ⟨hs, huntaken, honce⟩
    have hothers : ∀ t ∈ settings, d.isTaken t.option = false ∧
        (s.option = t.option → s.option = .family) := by
      intro t ht
      have h := huntaken t ht
      rw [Bool.eq_false_iff, Ne, isTaken_set, not_or, not_and_not_right] at h
      exact ⟨Bool.eq_false_iff.2 h.1, fun heq => heq.trans (h.2 heq)⟩
    refine ⟨List.forall_mem_cons.2 ⟨hs, fun t ht => (hothers t ht).1⟩, ?_⟩
    exact List.pairwise_cons.2 ⟨fun t ht => (hothers t ht).2, honce⟩

/-- Fresh settings are all taken over. -/
theorem storeAll_of_fresh (hvalid : ∀ s ∈ settings, s.Valid) (h : d.Fresh settings) :
    d.storeAll settings = .ok (settings.foldl set d) := by
  induction settings generalizing d with
  | nil => rfl
  | cons s settings ih =>
    obtain ⟨hs, hvalid⟩ := List.forall_mem_cons.1 hvalid
    obtain ⟨huntaken, h⟩ := fresh_cons_iff.1 h
    rw [storeAll, List.foldlM_cons, store_of_valid hs huntaken]
    exact ih hvalid h

/-- If settings are not fresh, an option is reported as repeated, and nothing else is. -/
theorem storeAll_of_not_fresh (hvalid : ∀ s ∈ settings, s.Valid) (h : ¬ d.Fresh settings) :
    d.storeAll settings = .error .repeatedOption := by
  induction settings generalizing d with
  | nil => exact absurd (fresh_nil d) h
  | cons s settings ih =>
    obtain ⟨hs, hvalid⟩ := List.forall_mem_cons.1 hvalid
    rw [fresh_cons_iff, not_and] at h
    rw [storeAll, List.foldlM_cons]
    cases htaken : d.isTaken s.option with
    | true =>
      rw [store_of_isTaken htaken]
      rfl
    | false =>
      rw [store_of_valid hs htaken]
      exact ih hvalid (h htaken)

/-- What the draft shows is not overwritten by settings of other options. -/
theorem Shows.foldl (h : d.Shows s)
    (hne : ∀ t ∈ settings, t.option = s.option → t.option = .family) :
    (settings.foldl Draft.set d).Shows s := by
  induction settings generalizing d with
  | nil => exact h
  | cons t settings ih =>
    obtain ⟨ht, hne⟩ := List.forall_mem_cons.1 hne
    exact ih (h.set ht) hne

/-- Each of the settings is shown in the end. -/
theorem shows_foldl (h : d.Fresh settings) (hs : s ∈ settings) :
    (settings.foldl set d).Shows s := by
  induction settings generalizing d with
  | nil => exact absurd hs List.not_mem_nil
  | cons t settings ih =>
    obtain ⟨-, hfresh⟩ := fresh_cons_iff.1 h
    rcases List.mem_cons.1 hs with rfl | hs
    · apply (shows_set d s).foldl
      intro t ht heq
      exact heq.trans ((List.pairwise_cons.1 h.once).1 t ht heq.symm)
    · exact ih hfresh hs

theorem families_foldl (d : Draft) (settings : List Setting) :
    (settings.foldl set d).families.toList =
      d.families.toList ++ settings.filterMap Setting.family? := by
  induction settings generalizing d with
  | nil => simp
  | cons s settings ih =>
    rw [List.foldl_cons, ih, families_set, List.append_assoc]
    cases hs : s.family? <;> simp [hs]

/-- An option that no setting gives stays without a value. -/
theorem isTaken_foldl (h : d.isTaken o = false) (hne : ∀ s ∈ settings, s.option ≠ o) :
    (settings.foldl set d).isTaken o = false := by
  induction settings generalizing d with
  | nil => exact h
  | cons s settings ih =>
    obtain ⟨hs, hne⟩ := List.forall_mem_cons.1 hne
    refine ih ?_ hne
    rw [Bool.eq_false_iff, Ne, isTaken_set, h]
    rintro (htaken | ⟨heq, -⟩)
    · exact Bool.false_ne_true htaken
    · exact hs heq

end Draft

end InstanceTables.Command
