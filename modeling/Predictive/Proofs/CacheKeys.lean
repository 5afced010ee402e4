import Predictive.Proofs.Constructions
import Predictive.Proofs.WrittenForms

/-!
# What a digest stands for

The text that is digested for an engine is the written form of what its grammar was read from, then the
options by their names, then the version. A name is known by its first letter, so the whole text tells
the value and the options (`Engine.eq_of_cacheKey`), as long as every option has a value that is told by
its written form and is not a text: a text is written as it is, and may look like the options behind it.
Options count by their last values only (`Options.lastGiven`); an option given again with the value that
it has changes nothing (`Options.ofEntries_override_again`).
-/

set_option autoImplicit false

namespace Predictive

/-! ## The values that options are given last -/

namespace Options

/-- The value that is given to a name, the last one if there are several. -/
def lastGiven (s : String) : Given → Option Datum
  | [] => none
  | e :: given => (lastGiven s given).or (if e.1 = s then some e.2 else none)

theorem lookupEntry_override (s : String) (given : Given) (es : List (Datum × Datum)) :
    OrderedMap.lookupEntry (.text s) (Engine.override given es) =
      (lastGiven s given).or (OrderedMap.lookupEntry (.text s) es) := by
  induction given generalizing es with
  | nil => rfl
  | cons e given ih =>
      change OrderedMap.lookupEntry (.text s)
        (Engine.override given (OrderedMap.insertEntry (.text e.1) e.2 es)) = _
      rw [ih, OrderedMap.lookupEntry_insertEntry_text, lastGiven, Option.or_assoc]
      by_cases hs : e.1 = s <;> simp [hs]

theorem get?_ofList (s : String) (given : Given) :
    (OrderedMap.ofList given).get? s = lastGiven s given := by
  have hfold : ∀ m : OrderedMap String Datum,
      (given.foldl (fun m e => m.insert e.1 e.2) m).get? s = (lastGiven s given).or (m.get? s) := by
    induction given with
    | nil => intro m; rfl
    | cons e given ih =>
        intro m
        rw [List.foldl_cons, ih, OrderedMap.get?_insert, lastGiven, Option.or_assoc]
        by_cases hs : e.1 = s <;> simp [hs]
  rw [OrderedMap.ofList, hfold, OrderedMap.get?_empty, Option.or_none]

theorem mem_of_lastGiven {s : String} {v : Datum} {given : Given}
    (h : lastGiven s given = some v) : (s, v) ∈ given := by
  induction given with
  | nil => exact absurd h (by simp [lastGiven])
  | cons e given ih =>
      rw [lastGiven] at h
      cases hrest : lastGiven s given with
      | some w =>
          rw [hrest] at h
          exact List.mem_cons_of_mem _ (ih (hrest.trans h))
      | none =>
          rw [hrest, Option.none_or] at h
          by_cases hs : e.1 = s
          · rw [if_pos hs] at h
            obtain rfl := Option.some.inj h
            exact List.mem_cons.2 (.inl (by rw [← hs]))
          · exact absurd h (by simp [hs])

theorem lastGiven_of_mem {e : String × Datum} {given : Given} (h : e ∈ given) :
    ∃ v, lastGiven e.1 given = some v := by
  induction given with
  | nil => exact absurd h (by simp)
  | cons f given ih =>
      rw [lastGiven]
      cases hrest : lastGiven e.1 given with
      | some w => exact ⟨w, rfl⟩
      | none =>
          rcases List.mem_cons.1 h with rfl | hmem
          · exact ⟨e.2, by simp⟩
          · obtain ⟨v, hv⟩ := ih hmem
            exact absurd (hrest.symm.trans hv) (by simp)

/-- What options come to depends on the values given last. -/
theorem get_filled_givenEntries (given : Given) (name : OptionName) :
    (filled (givenEntries given)).get name =
      match lastGiven name.text given with
      | some v => settled name v
      | none => default.get name := by
  rw [get_filled, filledValue, givenEntries_eq_override, lookupEntry_override]
  cases lastGiven name.text given <;> rfl

theorem filled_congr {given given' : Given} (h : ∀ s, lastGiven s given = lastGiven s given') :
    filled (givenEntries given) = filled (givenEntries given') := by
  apply ext_get
  intro name
  rw [get_filled_givenEntries, get_filled_givenEntries, h]

theorem exists_of_lookupEntry {s : String} {v : Datum} {es : List (Datum × Datum)}
    (h : OrderedMap.lookupEntry (.text s) es = some v) : ∃ e ∈ es, e.1 = .text s := by
  induction es with
  | nil => exact absurd h (by simp [OrderedMap.lookupEntry])
  | cons e es ih =>
      rw [OrderedMap.lookupEntry] at h
      by_cases hs : (e.1 == Datum.text s) = true
      · exact ⟨e, List.mem_cons_self, Datum.beq_text_iff.1 hs⟩
      · rw [if_neg hs] at h
        obtain ⟨f, hf, hkey⟩ := ih h
        exact ⟨f, List.mem_cons_of_mem _ hf, hkey⟩

/-- Names that were accepted are names of options. -/
theorem isKnown_of_ofGiven {given : Given} {o : Options} (h : ofGiven given = .ok o) :
    ∀ e ∈ given, ∃ name, OptionName.ofText? e.1 = some name := by
  intro e he
  obtain ⟨-, -, hknown⟩ := ofEntries_eq_ok_iff.1 h
  obtain ⟨v, hv⟩ := lastGiven_of_mem he
  have hlookup : OrderedMap.lookupEntry (.text e.1) (givenEntries given) = some v := by
    rw [givenEntries_eq_override, lookupEntry_override, hv]
    rfl
  cases hname : OptionName.ofText? e.1 with
  | some name => exact ⟨name, rfl⟩
  | none =>
      have hmem : Datum.text e.1 ∈ unknownKeys (givenEntries given) :=
        mem_unknownKeys.2 ⟨exists_of_lookupEntry hlookup, hname⟩
      rw [hknown] at hmem
      exact absurd hmem (by simp)

/-! ## Options given again -/

theorem lastGiven_loadable (name : OptionName) (given : Given) :
    lastGiven name.text (Engine.loadable given) =
      if name.isLoadable then lastGiven name.text given else none := by
  induction given with
  | nil => simp [Engine.loadable, lastGiven]
  | cons e given ih =>
      rw [Engine.loadable, List.filter_cons, ← Engine.loadable, lastGiven]
      by_cases hs : e.1 = name.text
      · -- whether it stays is whether the name may be given
        rw [OptionName.ofText?_eq_some_iff.2 hs, if_pos hs, Option.any_some]
        cases hloadable : name.isLoadable with
        | true => simp only [if_true, lastGiven, ih, hloadable, if_pos hs]
        | false => simp only [Bool.false_eq_true, if_false, ih, hloadable]
      · rw [if_neg hs, Option.or_none, ← ih]
        split
        · rw [lastGiven, if_neg hs, Option.or_none]
        · rfl

/-- Giving again what may be given on loading changes nothing. -/
theorem filled_override_again (given : Given) :
    filled (Engine.override (Engine.loadable given) (filled (givenEntries given)).fields) =
      filled (givenEntries given) := by
  apply ext_get
  intro name
  have hagain := settled_get_filled (givenEntries given) name
  rw [get_filled, filledValue, lookupEntry_override, lookupEntry_fields, lastGiven_loadable]
  cases name.isLoadable with
  | false => exact hagain
  | true =>
      rw [get_filled_givenEntries] at hagain ⊢
      cases hlast : lastGiven name.text given with
      | some v => rfl
      | none =>
          rw [hlast] at hagain
          exact hagain

/-- Options with those of them put in that may be given on loading are the options themselves. -/
theorem ofEntries_override_again {given : Given} {o : Options} (h : ofGiven given = .ok o) :
    ofEntries (Engine.override (Engine.loadable given) o.fields) = .ok o := by
  obtain ⟨rfl, hplace, -⟩ := ofEntries_eq_ok_iff.1 h
  exact ofEntries_eq_ok_iff.2 ⟨filled_override_again given, hplace,
    unknownKeys_override (loadable_loadable given) (unknownKeys_fields _)⟩

end Options

/-! ## Options by their names and values -/

namespace OptionName

/-- The first letter of the name of an option, which is different for every option. -/
def initial : OptionName → Char
  | .debug => 'd'
  | .strict => 's'
  | .cache => 'c'
  | .package => 'r'
  | .flags => 'g'

theorem exists_head_text (name : OptionName) : ∃ cs, name.text.toList = name.initial :: cs := by
  cases name <;> exact ⟨_, rfl⟩

theorem initial_injective {name other : OptionName} (h : name.initial = other.initial) :
    name = other := by
  revert h
  cases name <;> cases other <;> decide

theorem noDigitNext_text (name : OptionName) (r : List Char) :
    Datum.NoDigitNext (name.text.toList ++ r) := by
  obtain ⟨cs, hcs⟩ := name.exists_head_text
  rw [hcs]
  apply Datum.noDigitNext_cons
  cases name <;> decide

/-- A name is known, whatever follows it. -/
theorem eq_of_text {name other : OptionName} {r r' : List Char}
    (h : name.text.toList ++ r = other.text.toList ++ r') : name = other ∧ r = r' := by
  have hname : name = other := by
    obtain ⟨cs, hcs⟩ := name.exists_head_text
    obtain ⟨ds, hds⟩ := other.exists_head_text
    rw [hcs, hds] at h
    exact initial_injective (List.cons.inj h).1
  subst hname
  exact ⟨rfl, List.append_cancel_left h⟩

end OptionName

namespace Options

/-- A given option as it is digested: its name, directly followed by its value. -/
def form (e : String × Datum) : String := e.1 ++ e.2.display

/-- The name is one of an option, and the value is told by its written form and is not a text. -/
def isTold (e : String × Datum) : Bool :=
  (OptionName.ofText? e.1).isSome && (e.2.isTold && e.2.text?.isNone)

theorem toList_form {e : String × Datum} (h : isTold e = true) :
    ∃ name : OptionName, e.1 = name.text ∧ e.2.isTold = true ∧
      (form e).toList = name.text.toList ++ e.2.render.toList := by
  rw [isTold, Bool.and_eq_true, Bool.and_eq_true] at h
  obtain ⟨hname, hvalue, hnone⟩ := h
  obtain ⟨name, hname⟩ := Option.isSome_iff_exists.1 hname
  have hdisplay : e.2.display = e.2.render := by
    cases hv : e.2 with
    | text s =>
        rw [hv] at hnone
        exact absurd hnone (by simp [Datum.text?])
    | _ => rfl
  have htext := OptionName.ofText?_eq_some_iff.1 hname
  refine ⟨name, htext, hvalue, ?_⟩
  rw [form, hdisplay, String.toList_append, htext]

/-- An option tells its name and its value. -/
theorem tells_form {e : String × Datum} (h : isTold e = true) : Datum.Tells form isTold e := by
  intro f r r' hf hr hr' heq
  obtain ⟨name, hname, hvalue, hform⟩ := toList_form h
  obtain ⟨other, hother, hvalue', hform'⟩ := toList_form hf
  rw [hform, hform', List.append_assoc, List.append_assoc] at heq
  obtain ⟨rfl, hrest⟩ := OptionName.eq_of_text heq
  obtain ⟨hsame, hend⟩ := Datum.eq_of_render e.2 hvalue hvalue' hr hr' hrest
  exact ⟨Prod.ext (hname.trans hother.symm) hsame, hend⟩

theorem noDigitNext_forms {es : List (String × Datum)} (h : ∀ e ∈ es, isTold e = true) :
    Datum.NoDigitNext (es.flatMap fun e => (form e).toList) := by
  cases es with
  | nil => exact fun c hc => absurd hc (by simp)
  | cons e es =>
      obtain ⟨name, -, -, hform⟩ := toList_form (h e List.mem_cons_self)
      rw [List.flatMap_cons, hform, List.append_assoc]
      exact name.noDigitNext_text _

/-- Options in a row are known. -/
theorem eq_of_forms {es fs : List (String × Datum)} (hes : ∀ e ∈ es, isTold e = true)
    (hfs : ∀ f ∈ fs, isTold f = true)
    (h : (es.flatMap fun e => (form e).toList) = fs.flatMap fun f => (form f).toList) :
    es = fs := by
  -- an option is written with its name first, so it is never the empty text
  have nonempty : ∀ {e : String × Datum} {r : List Char}, isTold e = true →
      [] ≠ (form e).toList ++ r := by
    intro e r he hnil
    obtain ⟨name, -, -, hform⟩ := toList_form he
    obtain ⟨cs, hcs⟩ := name.exists_head_text
    rw [hform, hcs] at hnil
    exact absurd hnil (by simp)
  induction es generalizing fs with
  | nil =>
      cases fs with
      | nil => rfl
      | cons f fs => exact absurd h (nonempty (hfs f List.mem_cons_self))
  | cons e es ih =>
      cases fs with
      | nil => exact absurd h.symm (nonempty (hes e List.mem_cons_self))
      | cons f fs =>
          have hes' : ∀ x ∈ es, isTold x = true := fun x hx => hes x (List.mem_cons_of_mem _ hx)
          have hfs' : ∀ x ∈ fs, isTold x = true := fun x hx => hfs x (List.mem_cons_of_mem _ hx)
          obtain ⟨rfl, hrest⟩ := tells_form (hes e List.mem_cons_self) (hfs f List.mem_cons_self)
            (noDigitNext_forms hes') (noDigitNext_forms hfs') h
          rw [ih hes' hfs' hrest]

end Options

/-! ## Keys -/

namespace Engine

/-- The given options in the order of their names, each name once. -/
def sortedOptions (given : Options.Given) : List (String × Datum) :=
  (OrderedMap.ofList given).entries.mergeSort fun x y => decide (x.1 ≤ y.1)

theorem toList_optionText (given : Options.Given) :
    (optionText given).toList = (sortedOptions given).flatMap fun e => (Options.form e).toList := by
  change (String.join ((sortedOptions given).map Options.form)).toList = _
  rw [String.toList_join, List.flatMap_map]

/-- Options that are given once each and in the order of their names are digested as they are given. -/
theorem optionText_of_sorted {given : Options.Given}
    (honce : (OrderedMap.ofList given).entries = given)
    (h : given.Pairwise fun x y => decide (x.1 ≤ y.1) = true) :
    optionText given = String.join (given.map Options.form) := by
  have hsorted : sortedOptions given = given := by
    rw [sortedOptions, honce]
    exact List.mergeSort_of_pairwise h
  change String.join ((sortedOptions given).map Options.form) = _
  rw [hsorted]

theorem mem_sortedOptions_iff {given : Options.Given} {s : String} {v : Datum} :
    (s, v) ∈ sortedOptions given ↔ Options.lastGiven s given = some v := by
  rw [sortedOptions, List.mem_mergeSort, ← OrderedMap.get?_eq_some_iff, Options.get?_ofList]

theorem isTold_sortedOptions {given : Options.Given}
    (told : ∀ e ∈ given, Options.isTold e = true) :
    ∀ e ∈ sortedOptions given, Options.isTold e = true := by
  rintro ⟨s, v⟩ he
  exact told _ (Options.mem_of_lastGiven (mem_sortedOptions_iff.1 he))

/-- The text of which a digest is made tells the value that the engine is made of and the options. -/
theorem eq_of_cacheKey {scheme : CacheScheme} {d d' : Datum} {given given' : Options.Given}
    (hd : d.isTold = true) (hd' : d'.isTold = true)
    (told : ∀ e ∈ given, Options.isTold e = true) (told' : ∀ e ∈ given', Options.isTold e = true)
    (h : cacheKey scheme d given = cacheKey scheme d' given') :
    d = d' ∧ ∀ s, Options.lastGiven s given = Options.lastGiven s given' := by
  have hsorted := isTold_sortedOptions told
  have hsorted' := isTold_sortedOptions told'
  have hkey := congrArg String.toList h
  -- the version is the same, so what stands before it is the same
  simp only [cacheKey, String.toList_append] at hkey
  have hfront := List.append_cancel_right hkey
  rw [toList_optionText, toList_optionText] at hfront
  -- the value ends where the options begin, since no name begins with a digit
  obtain ⟨hvalue, hoptions⟩ := Datum.eq_of_render d hd hd' (Options.noDigitNext_forms hsorted)
    (Options.noDigitNext_forms hsorted') hfront
  refine ⟨hvalue, ?_⟩
  have hsame := Options.eq_of_forms hsorted hsorted' hoptions
  intro s
  apply Option.ext
  intro v
  rw [← mem_sortedOptions_iff, ← mem_sortedOptions_iff, hsame]

end Engine

end Predictive
