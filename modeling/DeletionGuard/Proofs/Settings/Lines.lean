import Mathlib.Data.Bool.AllAny
import DeletionGuard.Proofs.Yaml.Refusal
import DeletionGuard.Settings.Document

/-!
# Settings in a text of entries

The entries for a field give its value, and those with another key count for nothing. What has been
given and what is still to come is counted together: as long as no field is counted twice the
reading goes on, and it ends at the entry that gives a field again.
-/

namespace DeletionGuard.Settings

open Yaml (Document Mark PlacedEvent SpellsLines documentEvents entryEvents)

variable {d : Document} {begin : Mark} {path : ValuePath} {field other : Field} {given : Given}
  {word : String} {e : Yaml.Entry} {es : List Yaml.Entry} {k v : PlacedEvent Nat}
  {events : List (PlacedEvent Nat)}

/-! ### Scalars -/

section

variable {properties : Yaml.Properties} {plain : Bool} {expected : String}
  (h : v.event = .scalar properties word plain)
include h

theorem resolve_scalar : resolve d v = v := by
  rw [resolve, h]

theorem textOf_scalar : textOf d expected path v = .ok word := by
  rw [textOf, resolve_scalar h, h]

end

/-! ### Fields in entries -/

namespace Field

/-- The values that entries give to a field. -/
def values (field : Field) (es : List Yaml.Entry) : List String :=
  (es.filter fun e => String.ofList e.key = field.name).map fun e => String.ofList e.value

theorem ofName?_eq_some_iff : ofName? word = some field ↔ word = field.name := by
  constructor
  · intro h
    rw [ofName?] at h
    split at h
    · next hword => exact Option.some.inj h ▸ hword
    · split at h
      · next hword => exact Option.some.inj h ▸ hword
      · cases h
  · rintro rfl
    cases field <;> rfl

theorem values_cons_of_eq (h : ofName? (String.ofList e.key) = some field) :
    field.values (e :: es) = String.ofList e.value :: field.values es := by
  simp [values, ofName?_eq_some_iff.1 h]

theorem values_subset_cons : field.values es ⊆ field.values (e :: es) :=
  (((List.sublist_cons_self e es).filter _).map _).subset

theorem values_cons_of_ne (h : ofName? (String.ofList e.key) ≠ some field) :
    field.values (e :: es) = field.values es := by
  have hne : String.ofList e.key ≠ field.name := fun heq => h (ofName?_eq_some_iff.2 heq)
  simp [values, hne]

end Field

namespace Given

/-- What is given once a value for a field has been read. -/
def give (g : Given) (value : String) : Field → Given
  | .addressStart => { g with addressStart := some value }
  | .format => { g with format := Format.ofName? value }

/-- How often a field is given, before entries and by them. -/
def count (g : Given) (field : Field) (es : List Yaml.Entry) : Nat :=
  (field.values es).length + if g.has field then 1 else 0

/-- What is given after entries; the first value of a field counts. -/
def after (g : Given) (es : List Yaml.Entry) : Given where
  addressStart := g.addressStart.or (Field.addressStart.values es).head?
  format := g.format.or ((Field.format.values es).head?.bind Format.ofName?)

/-- A value that can be given to a field. -/
def Accepts (field : Field) (value : String) : Prop :=
  field = .format → (Format.ofName? value).isSome

theorem has_give (h : Accepts field word) :
    (given.give word field).has other = (decide (other = field) || given.has other) := by
  cases field with
  | addressStart => cases other <;> rfl
  | format =>
    cases other with
    | addressStart => rfl
    | format => exact h rfl

theorem count_give (hkey : Field.ofName? (String.ofList e.key) = some field)
    (hvalue : Accepts field (String.ofList e.value)) (hnew : given.has field = false)
    (other : Field) :
    (given.give (String.ofList e.value) field).count other es = given.count other (e :: es) := by
  rw [count, count, has_give hvalue]
  by_cases heq : other = field
  · rw [heq, Field.values_cons_of_eq hkey, hnew]
    simp
  · have hkey' : Field.ofName? (String.ofList e.key) ≠ some other :=
      fun h => heq (Option.some.inj (h.symm.trans hkey))
    rw [Field.values_cons_of_ne hkey', decide_eq_false heq, Bool.false_or]

theorem after_give (hkey : Field.ofName? (String.ofList e.key) = some field)
    (hvalue : Accepts field (String.ofList e.value)) (hnew : given.has field = false) :
    (given.give (String.ofList e.value) field).after es = given.after (e :: es) := by
  cases field with
  | addressStart =>
    have hnone : given.addressStart = none := by simpa [has] using hnew
    rw [after, after, Field.values_cons_of_eq hkey,
      Field.values_cons_of_ne (by rw [hkey]; nofun), hnone]
    rfl
  | format =>
    have hnone : given.format = none := by simpa [has] using hnew
    obtain ⟨f, hf⟩ := Option.isSome_iff_exists.1 (hvalue rfl)
    rw [after, after, Field.values_cons_of_eq hkey,
      Field.values_cons_of_ne (by rw [hkey]; nofun), hnone]
    simp [give, hf]

theorem count_of_unknown (hkey : Field.ofName? (String.ofList e.key) = none) :
    given.count field (e :: es) = given.count field es := by
  rw [count, count, Field.values_cons_of_ne (by rw [hkey]; nofun)]

theorem after_of_unknown (hkey : Field.ofName? (String.ofList e.key) = none) :
    given.after (e :: es) = given.after es := by
  rw [after, after, Field.values_cons_of_ne (by rw [hkey]; nofun),
    Field.values_cons_of_ne (by rw [hkey]; nofun)]

theorem read_scalar {plain : Bool} (hv : v.event = .scalar {} word plain)
    (hvalue : Accepts field word) :
    given.read d begin path v field = .ok (given.give word field) := by
  cases field with
  | addressStart =>
    rw [read, textOf_scalar hv]
    rfl
  | format =>
    obtain ⟨f, hf⟩ := Option.isSome_iff_exists.1 (hvalue rfl)
    have hformat : formatOf d begin path v = .ok f := by
      rw [formatOf, resolve_scalar hv, hv]
      simp only [tagOf, localWord?, hf]
    rw [read, hformat, give, hf]
    rfl

end Given

/-! ### Reading entries -/

theorem fields_mappingEnd (hk : k.event = .mappingEnd) :
    fields d begin given (k :: events) = .ok given := by
  rw [fields, if_pos hk]

/-- An entry with another key is passed over. -/
theorem fields_unknown (hk : k.event = .scalar {} (String.ofList e.key) true)
    (hv : v.event = .scalar {} (String.ofList e.value) e.plain)
    (hkey : Field.ofName? (String.ofList e.key) = none) :
    fields d begin given (k :: v :: events) = fields d begin given events := by
  have hskip : skip d 0 (v :: events) = .ok events := by
    rw [skip, hv]
    rfl
  rw [fields, if_neg (by rw [hk]; simp), textOf_scalar hk]
  simp only [hkey]
  split
  · next h => cases hskip.symm.trans h
  · next h => rw [Except.ok.inj (hskip.symm.trans h)]

/-- An entry for a field gives it, unless it is given already. -/
theorem fields_known (hk : k.event = .scalar {} (String.ofList e.key) true)
    (hv : v.event = .scalar {} (String.ofList e.value) e.plain)
    (hkey : Field.ofName? (String.ofList e.key) = some field)
    (hvalue : Given.Accepts field (String.ofList e.value)) :
    fields d begin given (k :: v :: events) =
      if given.has field then .error (.value (.duplicateField field.name) .whole begin)
      else fields d begin (given.give (String.ofList e.value) field) events := by
  rw [fields, if_neg (by rw [hk]; simp), textOf_scalar hk]
  simp only [hkey, Given.read_scalar hv hvalue]

/-- All entries are read unless one of them gives a field again. -/
theorem fields_entries (d : Document) (begin : Mark) (given : Given)
    (h : events.map PlacedEvent.event = entryEvents Nat es)
    (hformat : ∀ w ∈ Field.format.values es, (Format.ofName? w).isSome) :
    (∀ field, given.count field es ≤ 1) ∧ fields d begin given events = .ok (given.after es) ∨
      ∃ field, 1 < given.count field es ∧
        fields d begin given events =
          .error (.value (.duplicateField field.name) .whole begin) := by
  induction es generalizing given events with
  | nil =>
    obtain ⟨k, events, rfl, hk, -⟩ := List.map_eq_cons_iff.1 h
    refine .inl ⟨fun field => ?_, ?_⟩
    · rw [Given.count, show field.values [] = [] from rfl]
      split <;> decide
    · rw [fields_mappingEnd hk, Given.after]
      simp [Field.values]
  | cons e es ih =>
    obtain ⟨k, events, rfl, hk, hbehind⟩ := List.map_eq_cons_iff.1 h
    obtain ⟨v, events, rfl, hv, htail⟩ := List.map_eq_cons_iff.1 hbehind
    have hformat' : ∀ w ∈ Field.format.values es, (Format.ofName? w).isSome :=
      fun w hw => hformat w (Field.values_subset_cons hw)
    cases hkey : Field.ofName? (String.ofList e.key) with
    | none =>
      simp only [fields_unknown hk hv hkey, Given.count_of_unknown hkey,
        Given.after_of_unknown hkey]
      exact ih given htail hformat'
    | some field =>
      have hvalue : Given.Accepts field (String.ofList e.value) := by
        rintro rfl
        exact hformat _ (by rw [Field.values_cons_of_eq hkey]; exact List.mem_cons_self)
      rw [fields_known hk hv hkey hvalue]
      by_cases hgiven : given.has field = true
      · refine .inr ⟨field, ?_, if_pos hgiven⟩
        rw [Given.count, Field.values_cons_of_eq hkey, if_pos hgiven, List.length_cons]
        omega
      · have hnew : given.has field = false := Bool.eq_false_iff.2 hgiven
        have hrest := ih (given.give (String.ofList e.value) field) htail hformat'
        simp only [Given.count_give hkey hvalue hnew,
          Given.after_give hkey hvalue hnew] at hrest
        rw [if_neg hgiven]
        exact hrest

/-! ### Settings -/

theorem ofDocument_entries (hevents : d.events.map PlacedEvent.event = documentEvents Nat es)
    (hfault : d.fault = none) (hfollowed : d.followed = false)
    (hformat : ∀ w ∈ Field.format.values es, (Format.ofName? w).isSome) :
    (∀ field : Field, (field.values es).length ≤ 1) ∧
        ofDocument d = .ok (override {} (Field.addressStart.values es).head?
          ((Field.format.values es).head?.bind Format.ofName?)) ∨
      ∃ (field : Field) (mark : Mark), 1 < (field.values es).length ∧
        ofDocument d = .error (.value (.duplicateField field.name) .whole mark) := by
  have hcount (field : Field) : Given.count {} field es = (field.values es).length := by
    cases field <;> rfl
  cases es with
  | nil =>
    have hgiven : Settings.given d = .ok {} := by
      rw [Settings.given, List.map_eq_nil_iff.1 hevents, hfault]
      rfl
    refine .inl ⟨fun field => Nat.zero_le 1, ?_⟩
    rw [ofDocument, hgiven, hfault, hfollowed]
    rfl
  | cons e es =>
    obtain ⟨⟨_, mark⟩, events, heq, rfl, htail⟩ := List.map_eq_cons_iff.1 hevents
    have hgiven : Settings.given d = fields d mark {} events := by rw [Settings.given, heq]
    rw [ofDocument, hgiven, hfault, hfollowed]
    rcases fields_entries d mark {} htail hformat with
      ⟨hle, hfields⟩ | ⟨field, hlt, hfields⟩
    · refine .inl ⟨fun field => hcount field ▸ hle field, ?_⟩
      rw [hfields]
      rfl
    · refine .inr ⟨field, mark, hcount field ▸ hlt, ?_⟩
      rw [hfields]
      rfl

variable {files : String → Lookup} {path : String} {cs key rest : List Char}

theorem load_of_read (hfile : (files path).read = .ok (Utf8.encode cs)) :
    load files (some path) =
      (ofDocument (.ofText (String.ofList cs))).mapError (.malformed path) := by
  rw [load, hfile]
  simp only [Utf8.decode_encode, parse]

/-! ### Texts that are refused -/

/-- A document with a fault gives no settings, whatever is read before it. -/
theorem load_of_fault (hfile : (files path).read = .ok (Utf8.encode cs))
    (h : (Document.ofText (String.ofList cs)).fault.isSome) :
    ∃ fault, load files (some path) = .error (.malformed path fault) := by
  obtain ⟨fault, hfault⟩ := Option.isSome_iff_exists.1 h
  rw [load_of_read hfile, ofDocument, hfault]
  cases Settings.given (.ofText (String.ofList cs)) with
  | error fault => exact ⟨fault, rfl⟩
  | ok given => exact ⟨.document fault, rfl⟩

theorem load_longKey (hne : key ≠ []) (hword : ∀ c ∈ key, Yaml.IsWordChar c)
    (hlong : Yaml.maxKeyLength < (Utf8.encode key).length)
    (hrest : ∀ c ∈ rest, Yaml.isAllowed c = true)
    (hfile : (files path).read = .ok (Utf8.encode (key ++ ':' :: ' ' :: rest))) :
    ∃ fault, load files (some path) = .error (.malformed path fault) :=
  load_of_fault hfile (Yaml.isSome_fault_longKey hne hword hlong hrest)

theorem load_tab (hrest : ∀ c ∈ rest, Yaml.isAllowed c = true)
    (hfile : (files path).read = .ok (Utf8.encode ('\t' :: rest))) :
    ∃ fault, load files (some path) = .error (.malformed path fault) :=
  load_of_fault hfile (Yaml.isSome_fault_tab hrest)

/-! ### Texts that are read -/

/-- The entries of a file of lines are what it says, unless one of them gives a field again. -/
theorem load_of_lines (hfile : (files path).read = .ok (Utf8.encode cs)) (h : SpellsLines es cs)
    (hformat : ∀ w ∈ Field.format.values es, ∃ f : Format, w = f.name) :
    (∀ field : Field, (field.values es).length ≤ 1) ∧
        load files (some path) = .ok (override {} (Field.addressStart.values es).head?
          ((Field.format.values es).head?.bind Format.ofName?)) ∨
      ∃ (field : Field) (mark : Mark), 1 < (field.values es).length ∧
        load files (some path) =
          .error (.malformed path (.value (.duplicateField field.name) .whole mark)) := by
  obtain ⟨hevents, hfault, hfollowed⟩ := h.document
  have hnamed : ∀ w ∈ Field.format.values es, (Format.ofName? w).isSome := by
    intro w hw
    obtain ⟨f, rfl⟩ := hformat w hw
    cases f <;> rfl
  rw [load_of_read hfile]
  rcases ofDocument_entries hevents hfault hfollowed hnamed with
    ⟨hle, hok⟩ | ⟨field, mark, hlt, herror⟩
  · exact .inl ⟨hle, by rw [hok]; rfl⟩
  · exact .inr ⟨field, mark, hlt, by rw [herror]; rfl⟩

/-- Lines whose entries give no field twice and name their format. -/
structure Spells (es : List Yaml.Entry) (cs : List Char) : Prop where
  lines : SpellsLines es cs
  once : ∀ field : Field, (field.values es).length ≤ 1
  named : ∀ w ∈ Field.format.values es, ∃ f : Format, w = f.name

theorem Spells.load_eq (h : Spells es cs) (hfile : (files path).read = .ok (Utf8.encode cs)) :
    load files (some path) = .ok (override {} (Field.addressStart.values es).head?
      ((Field.format.values es).head?.bind Format.ofName?)) := by
  rcases load_of_lines hfile h.lines h.named with ⟨-, hok⟩ | ⟨field, -, hlt, -⟩
  · exact hok
  · exact absurd (h.once field) (Nat.not_le.2 hlt)

/-- A file of lines gives the settings that its entries name, and none if a field is given twice. -/
theorem load_of_spellsLines (files : String → Lookup) (path : String)
    (hfile : (files path).read = .ok (Utf8.encode cs)) (h : SpellsLines es cs)
    (hformat : ∀ w ∈ Field.format.values es, ∃ f : Format, w = f.name) :
    ((∀ field : Field, (field.values es).length ≤ 1) →
      load files (some path) = .ok
        { addressStart := (Field.addressStart.values es).head?.getD defaultAddressStart
          format := ((Field.format.values es).head?.bind Format.ofName?).getD .text }) ∧
    ∀ field : Field, 1 < (field.values es).length →
      ∃ (field' : Field) (mark : Mark), 1 < (field'.values es).length ∧
        load files (some path) =
          .error (.malformed path (.value (.duplicateField field'.name) .whole mark)) := by
  rcases load_of_lines hfile h hformat with ⟨hle, hok⟩ | ⟨field, mark, hlt, herror⟩
  · exact ⟨fun _ => hok, fun field hlt => absurd (hle field) (Nat.not_le.2 hlt)⟩
  · refine ⟨fun hle => absurd (hle field) (Nat.not_le.2 hlt), fun _ _ => ?_⟩
    exact ⟨field, mark, hlt, herror⟩

/-- Settings among a comment, a blank line and another key; and a format that is given twice. -/
theorem load_of_spellsLines_escape :
    load (fun _ => .regular (Utf8.ofString
          "# guard\n\nformat: json\nOther: ''''\naddress_prefix: \"a\\U0000000a\"\n"))
        (some "c.yaml") =
      .ok ⟨"a\n", .json⟩ ∧
    ∃ mark, load (fun _ => .regular (Utf8.ofString "format: json\nformat: text\n"))
        (some "c.yaml") =
      .error (.malformed "c.yaml" (.value (.duplicateField "format") .whole mark)) := by
  have hcomment : ∀ c ∈ " guard".toList, Yaml.IsPrintable c :=
    List.all_iff_forall_prop.1 (by decide)
  have hformat : Yaml.IsKey "format".toList :=
    ⟨by decide, List.all_iff_forall_prop.1 (by decide +kernel), by decide +kernel⟩
  have hother : Yaml.IsKey "Other".toList :=
    ⟨by decide, List.all_iff_forall_prop.1 (by decide +kernel), by decide +kernel⟩
  have hstart : Yaml.IsKey "address_prefix".toList :=
    ⟨by decide, List.all_iff_forall_prop.1 (by decide +kernel), by decide +kernel⟩
  have hjson : Yaml.SpellsValue "json".toList true "json".toList :=
    .word (by decide) (List.all_iff_forall_prop.1 (by decide +kernel))
  have htext : Yaml.SpellsValue "text".toList true "text".toList :=
    .word (by decide) (List.all_iff_forall_prop.1 (by decide +kernel))
  have hquote : Yaml.SpellsValue ['\''] false "''''".toList :=
    .quoted (Yaml.spellsText_singleQuoted (List.all_iff_forall_prop.1 (by decide)))
  have hescape : Yaml.SpellsValue ['a', '\n'] false "\"a\\U0000000a\"".toList :=
    .quoted (Yaml.spellsText_doubleQuoted ['a', '\n'])
  have hlines : SpellsLines [⟨"format".toList, "json".toList, true⟩,
      ⟨"Other".toList, ['\''], false⟩, ⟨"address_prefix".toList, ['a', '\n'], false⟩] _ :=
    .filler (.comment 0 hcomment) (.filler (.blank 0)
      (.entry hformat hjson (.entry hother hquote (.entry hstart hescape .nil))))
  have htwice : SpellsLines [⟨"format".toList, "json".toList, true⟩,
      ⟨"format".toList, "text".toList, true⟩] _ :=
    .entry hformat hjson (.entry hformat htext .nil)
  have hnamed (w : String) (hw : w ∈ ["json", "text"]) : ∃ f : Format, w = f.name := by
    rcases List.mem_pair.1 hw with rfl | rfl
    · exact ⟨.json, rfl⟩
    · exact ⟨.text, rfl⟩
  constructor
  · refine (load_of_spellsLines _ _ (by rfl) hlines fun w hw => ⟨.json, ?_⟩).1 fun field => ?_
    · exact List.mem_singleton.1 hw
    · cases field <;> decide
  · obtain ⟨field, mark, hlt, hload⟩ := (load_of_spellsLines
      (fun _ => .regular (Utf8.ofString "format: json\nformat: text\n")) "c.yaml" (by rfl) htwice
      hnamed).2 .format (by decide)
    cases field with
    | addressStart => exact absurd hlt (by decide)
    | format => exact ⟨mark, hload⟩

/-- A key of letters is refused if they take too many bytes, and so is a line of a tab. -/
theorem exists_error_of_letters_of_tab :
    (List.replicate 342 '日').length ≤ 1000 ∧
      (∀ c ∈ List.replicate 342 '日', Text.isLetter c = true) ∧
      (∃ fault, load (fun _ => .regular (Utf8.encode (List.replicate 342 '日' ++
          ": \"x\"\n".toList))) (some "c.yaml") = .error (.malformed "c.yaml" fault)) ∧
      ∃ fault, load (fun _ => .regular (Utf8.ofString "\t\nformat: json\n")) (some "c.yaml") =
        .error (.malformed "c.yaml" fault) := by
  have hletters : ∀ c ∈ List.replicate 342 '日', Text.isLetter c = true :=
    List.all_eq_true.1 (by decide +kernel)
  refine ⟨by rw [List.length_replicate]; decide, hletters, ?_, ?_⟩
  · have hrest : ∀ c ∈ "\"x\"\n".toList, Yaml.isAllowed c = true :=
      List.all_eq_true.1 (by decide)
    exact load_longKey (by decide) (fun c hc => .inl (hletters c hc)) (by decide +kernel) hrest rfl
  · have hrest : ∀ c ∈ "\nformat: json\n".toList, Yaml.isAllowed c = true :=
      List.all_eq_true.1 (by decide)
    exact load_tab hrest rfl

end DeletionGuard.Settings
