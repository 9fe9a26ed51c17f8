import InstanceTables.Proofs.Command.Setting
import Mathlib.Data.List.Forall2
import Mathlib.Data.List.TakeWhile

/-!
# Command lines of `generate`

A setting is spelled as one argument with an equals sign, or as two arguments if the value cannot
be taken for an option.  In the second form the value is held back until the next argument is
read.  `ScanState.scan_of_spells` says that this makes no difference on a line of settings: to read
it is to settle what is pending and to take over the settings one by one.

So a line that gives the options of a command in any order is read as the command, and one that
gives an option again is refused (`parse_of_givenBy`).
-/

namespace InstanceTables

namespace Command

/-- The value may be an argument of its own: it does not begin with a dash, or is the order. -/
def Setting.StandsAlone (s : Setting) : Prop :=
  s.text.toList.head? ≠ some '-' ∨ s.option = .maxOrder

/-- The arguments that a setting is spelled with: its name and value joined by an equals sign, or
one after the other if the value stands alone. -/
inductive Setting.Spells (s : Setting) : List String → Prop
  | joined : Spells s ["--" ++ s.option.name ++ "=" ++ s.text]
  | separate (h : s.StandsAlone) : Spells s ["--" ++ s.option.name, s.text]

/-- Digits behind a dash make a negative number. -/
theorem isNumber_of_isDigit {letters : List Char} (h : ∀ c ∈ letters, c.isDigit) :
    isNumber letters := by
  have hother {d : Char} (hd : ¬ d.isDigit) : d ∉ letters := fun hmem => hd (h d hmem)
  have hmantissa : ∀ c ∈ letters, (c ≠ 'e' && c ≠ 'E') = true := by
    intro c hc
    have he : c ≠ 'e' := ne_of_mem_of_not_mem hc (hother (by decide))
    have hE : c ≠ 'E' := ne_of_mem_of_not_mem hc (hother (by decide))
    simp [he, hE]
  have hpoint : '.' ∉ letters := hother (by decide)
  have hhead : letters.head? ≠ some '.' := fun hmem => hpoint (List.mem_of_mem_head? hmem)
  have hall : letters.all (fun c => c.isDigit || c = '.') :=
    List.all_eq_true.2 fun c hc => by simp [h c hc]
  unfold isNumber
  rw [List.takeWhile_eq_self_iff.2 hmantissa, List.dropWhile_eq_nil_iff.2 hmantissa]
  simp [hall, hhead, List.count_eq_zero.2 hpoint]

namespace Token

theorem ofArgument_of_head?_ne {cs : List Char} (h : cs.head? ≠ some '-') :
    ofArgument cs = .word := by
  unfold ofArgument
  split
  · exact absurd rfl h
  · exact absurd rfl h
  · exact absurd rfl h
  · rfl

theorem ofArgument_dashes {rest : List Char} (h : rest ≠ []) :
    ofArgument ('-' :: '-' :: rest) =
      .long (rest.takeWhile (· ≠ '=')) (rest.dropWhile (· ≠ '=')).tail? := by
  cases rest with
  | nil => exact absurd rfl h
  | cons c rest => rfl

theorem ofArgument_dash {letters : List Char} (hne : letters ≠ [])
    (h : letters.head? ≠ some '-') : ofArgument ('-' :: letters) = .short letters := by
  unfold ofArgument
  split
  · next heq => exact absurd (List.cons.inj heq).2 fun hletters => h (hletters ▸ rfl)
  · next heq => exact absurd (List.cons.inj heq).2 fun hletters => h (hletters ▸ rfl)
  · next heq => rw [(List.cons.inj heq).2]
  · next hno =>
    cases letters with
    | nil => exact absurd rfl hne
    | cons c letters => exact absurd rfl (hno c letters)

theorem ofArgument_name (o : CommandOption) :
    ofArgument ("--" ++ o.name).toList = .long o.name.toList none := by
  cases o <;> rfl

/-- The value begins behind the first equals sign, and may have others in it. -/
theorem ofArgument_joined (o : CommandOption) (value : String) :
    ofArgument ("--" ++ o.name ++ "=" ++ value).toList =
      .long o.name.toList (some value.toList) := by
  have hall : o.name.toList.all fun c => decide (c ≠ '=') := by
    cases o <;> decide
  have hname := List.all_eq_true.1 hall
  have hlist : ("--" ++ o.name ++ "=" ++ value).toList =
      '-' :: '-' :: (o.name.toList ++ '=' :: value.toList) := by
    simp [String.toList_append]
  rw [hlist, ofArgument_dashes (by simp), Text.takeWhile_append_cons hname (by decide),
    List.dropWhile_append_of_pos hname]
  rfl

/-- A value that stands by itself is a word, or a negative number that is an order. -/
theorem ofArgument_text {s : Setting} (h : s.StandsAlone) :
    ofArgument s.text.toList = .word ∨
      s.option = .maxOrder ∧ ∃ letters, ofArgument s.text.toList = .short letters ∧
        isNumber letters := by
  rcases h with h | h
  · exact .inl (ofArgument_of_head?_ne h)
  · cases s with
    | maxOrder n =>
      cases n with
      | ofNat m =>
        left
        apply ofArgument_of_head?_ne
        rw [Setting.text, Text.toList_toString_ofNat]
        exact Text.head?_toDigits_ne (by decide) m
      | negSucc m =>
        right
        refine ⟨rfl, Nat.toDigits 10 (m + 1), ?_, ?_⟩
        · rw [Setting.text, Text.toList_toString_negSucc]
          exact ofArgument_dash Nat.toDigits_ne_nil (Text.head?_toDigits_ne (by decide) _)
        · exact isNumber_of_isDigit fun _ => Text.isDigit_of_mem_toDigits
    | _ => cases h

end Token

/-! ## Reading settings -/

namespace ScanState

variable {st : ScanState} {s : Setting}

theorem readOption_name (st : ScanState) (o : CommandOption) (value : Option (List Char)) :
    st.readOption CommandOption.ofGenerate (.long o.name.toList value) =
      match value with
      | none => st.settle >>= fun d => .ok { draft := d, pending := .awaiting o }
      | some value => st.settle >>= fun d => d.store o value >>= fun d => .ok { draft := d } := by
  have hhelp : o.name.toList ≠ "help".toList := by
    cases o <;> decide
  have hfind : CommandOption.ofGenerate.find? (·.name.toList = o.name.toList) = some o := by
    cases o <;> decide
  cases value <;> simp only [readOption, if_neg hhelp, hfind] <;> rfl

/-- No option waits for its value. -/
def IsOpen (st : ScanState) : Prop := ∀ o, st.pending ≠ .awaiting o

theorem isOpen_settled (d : Draft) : IsOpen { draft := d } := fun _ => nofun

theorem isOpen_holding (d : Draft) (o : CommandOption) (value : List Char) :
    IsOpen { draft := d, pending := .holding o value } := fun _ => nofun

theorem IsOpen.expects_eq (h : st.IsOpen) (token : Token) : st.expects token = none := by
  unfold expects
  split
  · next hpending => exact absurd hpending (h _)
  · next hpending => exact absurd hpending (h _)
  · rfl

/-- A value that stands by itself is taken by the option that waits for it. -/
theorem expects_text (h : s.StandsAlone) (d : Draft) :
    expects { draft := d, pending := .awaiting s.option } (Token.ofArgument s.text.toList) =
      some s.option := by
  rcases Token.ofArgument_text h with htoken | ⟨hoption, letters, htoken, hnumber⟩
  · rw [htoken]
    rfl
  · rw [htoken, hoption]
    exact if_pos hnumber

theorem text_ne_escape (h : s.StandsAlone) :
    Token.ofArgument s.text.toList ≠ .escape := by
  rcases Token.ofArgument_text h with htoken | ⟨-, letters, htoken, -⟩
  · rw [htoken]
    nofun
  · rw [htoken]
    nofun

/-- A joined setting settles what is pending and is taken over. -/
theorem scan_joined (h : st.IsOpen) (s : Setting) (rest : List (List Char)) :
    scan CommandOption.ofGenerate st (("--" ++ s.option.name ++ "=" ++ s.text).toList :: rest) =
      st.settle >>= fun d => d.store s.option s.text.toList >>= fun d =>
        scan CommandOption.ofGenerate { draft := d } rest := by
  rw [scan, Token.ofArgument_joined, if_neg nofun, read, Token.ofArgument_joined, h.expects_eq,
    readOption_name]
  simp only [bind_assoc]
  rfl

/-- A setting in two arguments settles what is pending, and its value is held back. -/
theorem scan_separate (h : st.IsOpen) (hs : s.StandsAlone) (rest : List (List Char)) :
    scan CommandOption.ofGenerate st
        (("--" ++ s.option.name).toList :: s.text.toList :: rest) =
      st.settle >>= fun d => scan CommandOption.ofGenerate
        { draft := d, pending := .holding s.option s.text.toList } rest := by
  rw [scan, Token.ofArgument_name, if_neg nofun, read, Token.ofArgument_name, h.expects_eq,
    readOption_name]
  simp only [bind_assoc]
  refine congrArg _ (funext fun d => ?_)
  change scan _ { draft := d, pending := .awaiting s.option } (s.text.toList :: rest) = _
  rw [scan, if_neg (text_ne_escape hs), read, expects_text hs]
  rfl

/-- Reading a line of settings settles what is pending and takes the settings over one by one. -/
theorem scan_of_spells {settings : List Setting} {words : List (List String)}
    (hwords : List.Forall₂ Setting.Spells settings words) (h : st.IsOpen) :
    scan CommandOption.ofGenerate st (words.flatten.map String.toList) =
      st.settle >>= fun d => d.storeAll settings := by
  induction hwords generalizing st with
  | nil => exact (bind_pure _).symm
  | @cons s arguments settings words hs _ ih =>
    rw [List.flatten_cons, List.map_append]
    cases hs with
    | joined =>
      refine (scan_joined h s _).trans ?_
      refine congrArg _ (funext fun d => ?_)
      refine congrArg _ (funext fun d => ?_)
      exact ih (isOpen_settled d)
    | separate hs =>
      refine (scan_separate h hs _).trans ?_
      refine congrArg _ (funext fun d => ?_)
      exact ih (isOpen_holding d _ _)

end ScanState

/-- The settings of a line become a command if all of them are taken over. -/
theorem parse_of_spells {settings : List Setting} {words : List (List String)}
    (hwords : List.Forall₂ Setting.Spells settings words) :
    parse ("generate" :: words.flatten) = Draft.storeAll {} settings >>= generateOf := by
  have hscan := ScanState.scan_of_spells hwords (ScanState.isOpen_settled {})
  change (ScanState.scan _ {} (words.flatten.map String.toList) >>= fun d => generateOf d) = _
  rw [hscan]
  rfl

end Command

/-! ## The settings of a command -/

namespace GenerateCommand

open Command

/-- The settings of the command without the generator, in the order of their options. -/
def settings (c : GenerateCommand) : List Setting :=
  [.configFile c.configFile, .maxOrder c.maxOrder, .outFile c.outFile] ++ c.families.map .family

/-- The settings give the command.  They may come in any order, but the families keep theirs, and
the generator may be left out if it is the one that is stated anyway. -/
structure GivenBy (c : GenerateCommand) (given : List Setting) : Prop where
  perm : given.Perm (.generator c.generator :: c.settings) ∨
    c.generator = defaultGenerator ∧ given.Perm c.settings
  families_eq : given.filterMap Setting.family? = c.families

variable {c : GenerateCommand} {given : List Setting} {s : Setting}

theorem mem_settings_iff :
    s ∈ c.settings ↔ s = .configFile c.configFile ∨ s = .maxOrder c.maxOrder ∨
      s = .outFile c.outFile ∨ ∃ f ∈ c.families, .family f = s := by
  simp [settings]

/-- Each option but that of the families has one setting. -/
theorem pairwise_settings (c : GenerateCommand) :
    (Setting.generator c.generator :: c.settings).Pairwise
      fun s t => s.option = t.option → s.option = .family := by
  simp [settings, Setting.option, List.pairwise_map, List.pairwise_of_forall]

theorem option_ne_generator (hs : s ∈ c.settings) : s.option ≠ .generator := by
  rcases mem_settings_iff.1 hs with rfl | rfl | rfl | ⟨f, -, rfl⟩ <;> nofun

namespace GivenBy

theorem mem_of_mem_settings (h : c.GivenBy given) (hs : s ∈ c.settings) : s ∈ given := by
  rcases h.perm with hperm | ⟨-, hperm⟩
  · exact hperm.mem_iff.2 (List.mem_cons_of_mem _ hs)
  · exact hperm.mem_iff.2 hs

theorem eq_generator_or_mem_settings (h : c.GivenBy given) (hs : s ∈ given) :
    s = .generator c.generator ∨ s ∈ c.settings := by
  rcases h.perm with hperm | ⟨-, hperm⟩
  · exact List.mem_cons.1 (hperm.mem_iff.1 hs)
  · exact .inr (hperm.mem_iff.1 hs)

theorem valid (h : c.GivenBy given) (hconfig : c.configFile ≠ "") (hout : c.outFile ≠ "")
    (horder : -Text.integerLimit ≤ c.maxOrder ∧ c.maxOrder < Text.integerLimit) :
    ∀ s ∈ given, s.Valid := by
  intro s hs
  rcases h.eq_generator_or_mem_settings hs with rfl | hs
  · trivial
  · rcases mem_settings_iff.1 hs with rfl | rfl | rfl | ⟨f, -, rfl⟩
    · exact hconfig
    · exact horder
    · exact hout
    · trivial

theorem fresh (h : c.GivenBy given) : Draft.Fresh {} given := by
  have hsymm {s t : Setting} (hst : s.option = t.option → s.option = .family) :
      t.option = s.option → t.option = .family := fun heq => heq.trans (hst heq.symm)
  refine ⟨fun s _ => ?_, ?_⟩
  · cases s <;> rfl
  · rcases h.perm with hperm | ⟨-, hperm⟩
    · exact (hperm.pairwise_iff hsymm).2 c.pairwise_settings
    · exact (hperm.pairwise_iff hsymm).2 (List.pairwise_cons.1 c.pairwise_settings).2

/-- The generator is the one that is given, or the one that is stated without. -/
theorem generator_eq (h : c.GivenBy given) :
    (given.foldl Draft.set {}).generator.getD defaultGenerator = c.generator := by
  rcases h.perm with hperm | ⟨hdefault, hperm⟩
  · have hgiven : (given.foldl Draft.set {}).generator = some c.generator :=
      Draft.shows_foldl (s := .generator _) h.fresh (hperm.mem_iff.2 List.mem_cons_self)
    rw [hgiven, Option.getD_some]
  · have htaken : (given.foldl Draft.set {}).isTaken .generator = false :=
      Draft.isTaken_foldl rfl fun s hs => option_ne_generator (hperm.mem_iff.1 hs)
    have hnone : (given.foldl Draft.set {}).generator = none :=
      Option.isNone_iff_eq_none.1 (Option.isSome_eq_false_iff.1 htaken)
    rw [hnone, Option.getD_none, hdefault]

/-- The draft of the settings makes the command. -/
theorem generateOf_eq (h : c.GivenBy given) :
    generateOf (given.foldl Draft.set {}) = .ok (.generate c) := by
  have hshows {s : Setting} (hs : s ∈ c.settings) : (given.foldl Draft.set {}).Shows s :=
    Draft.shows_foldl h.fresh (h.mem_of_mem_settings hs)
  have hconfig : (given.foldl Draft.set {}).configFile = some c.configFile :=
    hshows (s := .configFile _) (mem_settings_iff.2 (.inl rfl))
  have horder : (given.foldl Draft.set {}).maxOrder = some c.maxOrder :=
    hshows (s := .maxOrder _) (mem_settings_iff.2 (.inr (.inl rfl)))
  have hout : (given.foldl Draft.set {}).outFile = some c.outFile :=
    hshows (s := .outFile _) (mem_settings_iff.2 (.inr (.inr (.inl rfl))))
  have hfamilies : (given.foldl Draft.set {}).families.toList = c.families :=
    (Draft.families_foldl {} given).trans h.families_eq
  simp only [generateOf, hconfig, horder, hout, hfamilies, h.generator_eq, required]
  rfl

end GivenBy

end GenerateCommand

/-! ## Lines -/

namespace Command

variable {given : List Setting} {words : List (List String)}

/-- A setting of an option that is given already is not fresh, wherever it is put. -/
theorem Draft.not_fresh_of_repeated {before after : List Setting} {s t : Setting}
    (ht : t ∈ before ++ after) (heq : t.option = s.option) (hs : s.option ≠ .family) :
    ¬ Draft.Fresh {} (before ++ s :: after) := by
  rintro ⟨-, honce⟩
  obtain ⟨-, hafter, hbefore⟩ := List.pairwise_append.1 honce
  rcases List.mem_append.1 ht with ht | ht
  · exact hs (heq ▸ hbefore t ht s List.mem_cons_self heq)
  · exact hs ((List.pairwise_cons.1 hafter).1 t ht heq.symm)

/-- A line that gives a command is read as the command.  The settings may come in any order, each
spelled with an equals sign or in two arguments; only the families have to keep theirs.  If an
option other than the families is given once more, with whatever valid value and wherever that is
put between the settings, the line is refused because of it. -/
theorem parse_of_givenBy (c : GenerateCommand) (hconfig : c.configFile ≠ "")
    (hout : c.outFile ≠ "")
    (horder : -Text.integerLimit ≤ c.maxOrder ∧ c.maxOrder < Text.integerLimit)
    (hgiven : c.GivenBy given) (hwords : List.Forall₂ Setting.Spells given words) :
    parse ("generate" :: words.flatten) = .ok (.generate c) ∧
      ∀ before after, before ++ after = words → ∀ (s : Setting) (again : List String), s.Valid →
        s.Spells again → s.option ≠ .family → (∃ t ∈ given, t.option = s.option) →
          parse ("generate" :: (before ++ again :: after).flatten) = .error .repeatedOption := by
  have hvalid := hgiven.valid hconfig hout horder
  constructor
  · rw [parse_of_spells hwords, Draft.storeAll_of_fresh hvalid hgiven.fresh]
    exact hgiven.generateOf_eq
  · rintro before after rfl s again hs hagain hfamily ⟨t, ht, heq⟩
    have hbefore := List.forall₂_take_append given before after hwords
    have hafter := List.forall₂_drop_append given before after hwords
    rw [← List.take_append_drop before.length given] at hvalid ht
    obtain ⟨hvalidBefore, hvalidAfter⟩ := List.forall_mem_append.1 hvalid
    have hall : ∀ r ∈ given.take before.length ++ s :: given.drop before.length, r.Valid :=
      List.forall_mem_append.2 ⟨hvalidBefore, List.forall_mem_cons.2 ⟨hs, hvalidAfter⟩⟩
    rw [parse_of_spells (List.rel_append hbefore (.cons hagain hafter)),
      Draft.storeAll_of_not_fresh hall (Draft.not_fresh_of_repeated ht heq hfamily)]
    rfl

/-- A command with the least order, in both spellings, with values that have spaces, dashes and
equals signs in them.  Then the output is named again, between the last two families. -/
theorem parse_of_givenBy_mixed :
    parse ["generate", "--family", "mapping", "--out-file=-o", "--family=quadrature",
        "--max-der-order", "-9223372036854775808", "--config-file=a=b c", "--family=mapping",
        "--generator", "="] =
      .ok (.generate ⟨"a=b c", -9223372036854775808, "-o",
        [.mapping, .perDim .quadrature, .mapping], "="⟩) ∧
    parse ["generate", "--family", "mapping", "--out-file=-o", "--family=quadrature",
        "--max-der-order", "-9223372036854775808", "--config-file=a=b c", "--out-file", "p",
        "--family=mapping", "--generator", "="] = .error .repeatedOption := by
  have hgiven : GenerateCommand.GivenBy
      ⟨"a=b c", -9223372036854775808, "-o", [.mapping, .perDim .quadrature, .mapping], "="⟩
      [.family .mapping, .outFile "-o", .family (.perDim .quadrature),
        .maxOrder (-9223372036854775808), .configFile "a=b c", .family .mapping,
        .generator "="] :=
    ⟨.inl (by decide), rfl⟩
  have hwords : List.Forall₂ Setting.Spells
      [.family .mapping, .outFile "-o", .family (.perDim .quadrature),
        .maxOrder (-9223372036854775808), .configFile "a=b c", .family .mapping, .generator "="]
      [["--family", "mapping"], ["--out-file=-o"], ["--family=quadrature"],
        ["--max-der-order", "-9223372036854775808"], ["--config-file=a=b c"],
        ["--family=mapping"], ["--generator", "="]] :=
    .cons (.separate (.inl (by decide))) <| .cons .joined <| .cons .joined <|
      .cons (.separate (.inr rfl)) <| .cons .joined <| .cons .joined <|
      .cons (.separate (.inl (by decide))) .nil
  obtain ⟨hparse, hrepeated⟩ :=
    parse_of_givenBy _ (by decide) (by decide) (by decide) hgiven hwords
  refine ⟨hparse, ?_⟩
  exact hrepeated
    [["--family", "mapping"], ["--out-file=-o"], ["--family=quadrature"],
      ["--max-der-order", "-9223372036854775808"], ["--config-file=a=b c"]]
    [["--family=mapping"], ["--generator", "="]] rfl (.outFile "p") ["--out-file", "p"]
    (by decide : "p" ≠ "") (.separate (.inl (by decide))) nofun
    ⟨.outFile "-o", by decide, rfl⟩

end Command

end InstanceTables
