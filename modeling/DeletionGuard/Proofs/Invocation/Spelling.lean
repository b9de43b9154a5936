import Mathlib.Data.List.Nodup
import Mathlib.Data.List.TakeWhile
import DeletionGuard.Invocation.Arguments
import DeletionGuard.Proofs.Text.Split

/-!
# Spellings of an invocation

An invocation can be written in many ways: options before and behind the plan in any order, by
letter or by name, with the value attached or as the next word. All of them are read as what they
spell. What has been read is a draft that holds exactly the parameters given so far, and each group
of words adds its own to it.
-/

namespace DeletionGuard

/-- The words that name a format, in any ASCII case. -/
def Format.IsNamedBy (f : Format) (word : String) : Prop :=
  let w := word.toList.map Char.toLower
  match f with
  | .text => w = "text".toList ∨ w = "plain".toList
  | .json => w = "json".toList

theorem Format.ofWord?_of_isNamedBy {f : Format} {word : String} (h : f.IsNamedBy word) :
    ofWord? word = some f := by
  cases f with
  | text => exact if_pos h
  | json =>
    rw [IsNamedBy] at h
    rw [ofWord?, h]
    decide

theorem Format.eq_bind_ofWord? {f : Option Format} {word : Option String}
    (h : Option.Rel IsNamedBy f word) : f = word.bind ofWord? := by
  cases h with
  | none => rfl
  | some hnamed => exact (ofWord?_of_isNamedBy hnamed).symm

/-- The options and flags that a run can be given. -/
def Parameter.IsOption (p : Parameter) : Prop :=
  p ≠ .plan ∧ p ≠ .help ∧ p ≠ .version

instance (p : Parameter) : Decidable p.IsOption :=
  inferInstanceAs (Decidable (_ ∧ _))

theorem Parameter.isOption_of_takesValue {p : Parameter} (htakes : p.takesValue)
    (hp : p ≠ .plan) : p.IsOption := by
  revert htakes hp
  cases p <;> decide

namespace Invocation

/-! ### Spellings -/

/-- A word that stands for itself: it does not begin with a dash, or it is one. -/
def IsPlainWord (word : String) : Prop :=
  word = "-" ∨ ¬ "-".toList <+: word.toList

instance (word : String) : Decidable (IsPlainWord word) :=
  inferInstanceAs (Decidable (_ ∨ _))

theorem IsPlainWord.ne_mark {word : String} (h : IsPlainWord word) : word ≠ "--" := by
  rintro rfl
  exact absurd h (by decide)

/-- The letters behind the dash that give an option a value, and the words behind them. -/
inductive SpellsLetters : Parameter → String → List Char → List String → Prop
  | attached {p : Parameter} {c : Char} {v : String} :
    p.letter? = some c → p.takesValue → v ≠ "" → ¬ "=".toList <+: v.toList →
      SpellsLetters p v (c :: v.toList) []
  | assigned {p : Parameter} {c : Char} {v : String} :
    p.letter? = some c → p.takesValue → SpellsLetters p v (c :: '=' :: v.toList) []
  | detached {p : Parameter} {c : Char} {v : String} :
    p.letter? = some c → p.takesValue → IsPlainWord v → SpellsLetters p v [c] [v]

/-- Words that belong together, and the parameters that they give, with their values. A flag has
the empty text for a value. -/
inductive SpellsGroup : List (Parameter × String) → List String → Prop
  | letters {p : Parameter} {v : String} {cs : List Char} {ws : List String} :
    SpellsLetters p v cs ws → SpellsGroup [(p, v)] (String.ofList ('-' :: cs) :: ws)
  | cluster {p : Parameter} {v : String} {cs : List Char} {ws : List String} :
    SpellsLetters p v cs ws →
      SpellsGroup [(.verbose, ""), (p, v)] (String.ofList ('-' :: 'v' :: cs) :: ws)
  | assigned {p : Parameter} {name v : String} :
    p.long? = some name → p.takesValue → SpellsGroup [(p, v)] ["--" ++ name ++ "=" ++ v]
  | detached {p : Parameter} {name v : String} :
    p.long? = some name → p.takesValue → IsPlainWord v → SpellsGroup [(p, v)] ["--" ++ name, v]
  | verbose : SpellsGroup [(.verbose, "")] ["-v"]
  | flag {p : Parameter} {name : String} :
    p.long? = some name → p = .verbose ∨ p = .noColor → SpellsGroup [(p, "")] ["--" ++ name]

/-- Groups of words one after the other, and all the parameters that they give. -/
inductive SpellsOptions : List (Parameter × String) → List String → Prop
  | nil : SpellsOptions [] []
  | append {given more : List (Parameter × String)} {ws ws' : List String} :
    SpellsGroup given ws → SpellsOptions more ws' → SpellsOptions (given ++ more) (ws ++ ws')

/-- The options of an invocation are those that are given, each one once. -/
structure IsGivenBy (inv : Invocation) (given : List (Parameter × String)) : Prop where
  once : (given.map Prod.fst).Nodup
  addressStart : inv.addressStart = given.lookup .addressStart
  settings : inv.settings = given.lookup .settings
  settings_ne : inv.settings ≠ some ""
  format : Option.Rel Format.IsNamedBy inv.format (given.lookup .format)
  verbose : inv.verbose = (given.lookup .verbose).isSome
  noColor : inv.noColor = (given.lookup .noColor).isSome

/-- The words that an invocation can be written as. -/
inductive Spells (inv : Invocation) : List String → Prop
  | among {before behind : List (Parameter × String)} {ws ws' : List String} :
    inv.plan ≠ "" → IsPlainWord inv.plan → SpellsOptions before ws → SpellsOptions behind ws' →
      inv.IsGivenBy (before ++ behind) → Spells inv (ws ++ inv.plan :: ws')
  | marked {given : List (Parameter × String)} {ws : List String} :
    inv.plan ≠ "" → SpellsOptions given ws → inv.IsGivenBy given →
      Spells inv (ws ++ ["--", inv.plan])

/-! ### Drafts that hold what is given -/

section Lookup

variable {given more : List (Parameter × String)} {p : Parameter} {v : String}

theorem lookup_append_cons (h : p ∉ given.map Prod.fst) :
    (given ++ (p, v) :: more).lookup p = some v := by
  rw [List.lookup_append, List.lookup_eq_none_iff.2, Option.none_or, List.lookup_cons_self]
  exact fun q hq => bne_iff_ne.2 fun heq => h (heq ▸ List.mem_map_of_mem hq)

theorem lookup_append_cons_of_ne {k : Parameter} (h : k ≠ p) :
    (given ++ (p, v) :: more).lookup k = (given ++ more).lookup k := by
  rw [List.lookup_append, List.lookup_cons, beq_false_of_ne h, List.lookup_append]

theorem lookup_of_mem (hnodup : (given.map Prod.fst).Nodup) (h : (p, v) ∈ given) :
    given.lookup p = some v := by
  obtain ⟨front, behind, rfl⟩ := List.append_of_mem h
  rw [List.map_append, List.nodup_append] at hnodup
  exact lookup_append_cons fun hmem => hnodup.2.2 _ hmem _ List.mem_cons_self rfl

end Lookup

namespace Draft

/-- The draft that holds the parameters given and nothing else. -/
def ofGiven (given : List (Parameter × String)) (planSeen : Bool) : Draft where
  given := given.map Prod.fst
  planSeen := planSeen
  plan := given.lookup .plan
  addressStart := given.lookup .addressStart
  settings := given.lookup .settings
  format := (given.lookup .format).bind Format.ofWord?
  verbose := (given.lookup .verbose).isSome
  noColor := (given.lookup .noColor).isSome

/-- A value that the parameter can have. -/
def IsValueOf (p : Parameter) (value : String) : Prop :=
  match p with
  | .plan | .settings => value ≠ ""
  | .format => ∃ f : Format, f.IsNamedBy value
  | .help | .version => False
  | _ => True

theorem accept_ofGiven {given : List (Parameter × String)} {planSeen : Bool} {p : Parameter}
    {value : String} (hnew : p ∉ given.map Prod.fst) (hvalue : IsValueOf p value) :
    (ofGiven given planSeen).accept p value = .ok (ofGiven (given ++ [(p, value)]) planSeen) := by
  have hself : (given ++ [(p, value)]).lookup p = some value := lookup_append_cons hnew
  have hother {k : Parameter} (hk : k ≠ p) : (given ++ [(p, value)]).lookup k = given.lookup k := by
    rw [lookup_append_cons_of_ne hk, List.append_nil]
  rw [accept, if_neg (show p ∉ (ofGiven given planSeen).given from hnew),
    show (ofGiven given planSeen).givenWith p = given.map Prod.fst ++ [p] from if_neg hnew]
  cases p with
  | plan | settings =>
    have hne : value ≠ "" := hvalue
    simp [store, hne, ofGiven, hself, hother]
  | format =>
    obtain ⟨f, hf⟩ := hvalue
    simp [store, ofGiven, Format.ofWord?_of_isNamedBy hf, hself, hother]
  | addressStart | verbose | noColor => simp [store, ofGiven, hself, hother]
  | help | version => exact hvalue.elim

/-- Once what is pending has been looked at, the draft holds the parameters given. -/
structure Holds (d : Draft) (given : List (Parameter × String)) (planSeen : Bool) : Prop where
  settle : d.settle = .ok (ofGiven given planSeen)
  planSeen : d.planSeen = planSeen

theorem holds_ofGiven (given : List (Parameter × String)) (planSeen : Bool) :
    Holds (ofGiven given planSeen) given planSeen :=
  ⟨rfl, rfl⟩

end Draft

/-! ### Words in front of others -/

theorem Parameter.ofLetter?_of_letter? {p : Parameter} {c : Char} (h : p.letter? = some c) :
    Parameter.ofLetter? c = some p ∧ c ≠ '-' := by
  cases p with
  | plan | noColor => cases h
  | _ =>
    obtain rfl := Option.some.inj h
    decide

theorem SpellsLetters.exists_cons {p : Parameter} {v : String} {cs : List Char} {ws : List String}
    (h : SpellsLetters p v cs ws) : ∃ c cs', cs = c :: cs' ∧ c ≠ '-' := by
  cases h with
  | attached hc | assigned hc | detached hc =>
    exact ⟨_, _, rfl, (Parameter.ofLetter?_of_letter? hc).2⟩

theorem Parameter.ofLong?_of_long? {p : Parameter} {name : String} (h : p.long? = some name) :
    Parameter.ofLong? name = some p ∧ '=' ∉ name.toList ∧ "--" ++ name ≠ "--" := by
  cases p with
  | plan => cases h
  | _ =>
    obtain rfl := Option.some.inj h
    decide

namespace Draft

variable {d : Draft} {given : List (Parameter × String)} {planSeen : Bool} {p : Parameter}
  {v : String}

theorem words_cons {w : String} (hw : w ≠ "--") (ws : List String) :
    d.words (w :: ws) = (d.word w).bind (·.words ws) := by
  rw [words, if_neg hw]
  rfl

theorem word_letters {c : Char} (hc : c ≠ '-') (cs : List Char) :
    d.word (String.ofList ('-' :: c :: cs)) = d.letters (c :: cs) := by
  rw [word, String.toList_ofList]
  split
  · next heq => exact absurd (List.cons.inj (List.cons.inj heq).2).1 hc
  · next heq => rw [(List.cons.inj heq).2]
  · next h => exact absurd rfl (h c cs)

theorem word_long {cs : List Char} :
    d.word (String.ofList ('-' :: '-' :: cs)) =
      d.long (String.ofList (cs.takeWhile (· ≠ '=')))
        (if '=' ∈ cs then some (String.ofList ((cs.dropWhile (· ≠ '=')).drop 1)) else none) := by
  rw [word, String.toList_ofList]
  rfl

theorem word_long_none {name : String} (hname : '=' ∉ name.toList) :
    d.word ("--" ++ name) = d.long name none := by
  have hword : "--" ++ name = String.ofList ('-' :: '-' :: name.toList) := by
    rw [← String.toList_inj]
    simp
  have htake : name.toList.takeWhile (· ≠ '=') = name.toList :=
    List.takeWhile_eq_self_iff.2 fun c hc => decide_eq_true (ne_of_mem_of_not_mem hc hname)
  rw [hword, word_long, if_neg hname, htake, String.ofList_toList]

theorem word_long_some {name : String} (hname : '=' ∉ name.toList) :
    d.word ("--" ++ name ++ "=" ++ v) = d.long name (some v) := by
  have hword : "--" ++ name ++ "=" ++ v =
      String.ofList ('-' :: '-' :: (name.toList ++ '=' :: v.toList)) := by
    rw [← String.toList_inj]
    simp
  have hletters : ∀ c ∈ name.toList, decide (c ≠ '=') = true :=
    fun c hc => decide_eq_true (ne_of_mem_of_not_mem hc hname)
  have htake : (name.toList ++ '=' :: v.toList).takeWhile (· ≠ '=') = name.toList := by
    rw [List.takeWhile_append_of_pos hletters, List.takeWhile_cons_of_neg (by decide),
      List.append_nil]
  have hdrop : (name.toList ++ '=' :: v.toList).dropWhile (· ≠ '=') = '=' :: v.toList := by
    rw [List.dropWhile_append_of_pos hletters, List.dropWhile_cons_of_neg (by decide)]
  have hmem : '=' ∈ name.toList ++ '=' :: v.toList := by simp
  rw [hword, word_long, if_pos hmem, htake, hdrop, String.ofList_toList, List.drop_succ_cons,
    List.drop_zero, String.ofList_toList]

theorem word_plain {w : String} (hw : IsPlainWord w) :
    d.word w = match d.pending with
      | some ⟨p, none⟩ => .ok { d with pending := some ⟨p, some w⟩ }
      | _ => d.bare w := by
  rcases hw with rfl | hw
  · rfl
  · have hhead {cs : List Char} : w.toList ≠ '-' :: cs := fun h =>
      hw (h ▸ List.cons_prefix_cons.2 ⟨rfl, List.nil_prefix⟩)
    rw [word]
    split
    · next heq => exact absurd heq hhead
    · next heq => exact absurd heq hhead
    · rfl

theorem long_of_long? {name : String} (h : p.long? = some name) (value : Option String) :
    d.long name value =
      match value with
      | none => if p.takesValue then d.await p else d.flag p
      | some v =>
        if p.takesValue then d.take p v else .error (.fault (.unexpectedValue v p d.given)) := by
  unfold long
  rw [(Parameter.ofLong?_of_long? h).1]
  cases value <;> rfl

/-- The draft in which the value of an option is awaited. -/
def awaiting (given : List (Parameter × String)) (planSeen : Bool) (p : Parameter) : Draft :=
  { ofGiven given planSeen with pending := some ⟨p, none⟩ }

theorem await_of_holds (hd : Holds d given planSeen) :
    d.await p = .ok (awaiting given planSeen p) := by
  rw [await, hd.settle]
  rfl

theorem take_of_holds (hd : Holds d given planSeen) (hnew : p ∉ given.map Prod.fst)
    (hvalue : IsValueOf p v) : d.take p v = .ok (ofGiven (given ++ [(p, v)]) planSeen) := by
  rw [take, hd.settle]
  exact accept_ofGiven hnew hvalue

theorem flag_of_holds (hd : Holds d given planSeen) (hnew : p ∉ given.map Prod.fst)
    (hflag : p = .verbose ∨ p = .noColor) :
    d.flag p = .ok (ofGiven (given ++ [(p, "")]) planSeen) := by
  rw [flag, hd.settle]
  rcases hflag with rfl | rfl <;> exact accept_ofGiven hnew trivial

theorem letters_cons {c : Char} (hc : p.letter? = some c) (cs : List Char) :
    d.letters (c :: cs) =
      if p.takesValue then
        match cs with
        | [] => d.await p
        | '=' :: value => d.take p (String.ofList value)
        | value => d.take p (String.ofList value)
      else (d.flag p).bind (·.letters cs) := by
  rw [letters, (Parameter.ofLetter?_of_letter? hc).1]
  rfl

/-- The words give the parameters, whatever comes behind them. -/
def Reads (d : Draft) (ws : List String) (given : List (Parameter × String)) (planSeen : Bool) :
    Prop :=
  ∃ d', Holds d' given planSeen ∧ ∀ rest, d.words (ws ++ rest) = d'.words rest

theorem Holds.reads_nil (hd : Holds d given planSeen) : Reads d [] given planSeen :=
  ⟨d, hd, fun _ => rfl⟩

theorem reads_cons {d' : Draft} {w : String} {ws : List String} (hw : w ≠ "--")
    (hword : d.word w = .ok d') (h : Reads d' ws given planSeen) :
    Reads d (w :: ws) given planSeen := by
  obtain ⟨d'', hd'', hrest⟩ := h
  refine ⟨d'', hd'', fun rest => ?_⟩
  rw [List.cons_append, words_cons hw, hword]
  exact hrest rest

theorem Reads.append {more : List (Parameter × String)} {planSeen' : Bool} {ws ws' : List String}
    (h : Reads d ws given planSeen)
    (hmore : ∀ {e : Draft}, Holds e given planSeen → Reads e ws' more planSeen') :
    Reads d (ws ++ ws') more planSeen' := by
  obtain ⟨d', hd', hrest⟩ := h
  obtain ⟨d'', hd'', hrest'⟩ := hmore hd'
  refine ⟨d'', hd'', fun rest => ?_⟩
  rw [List.append_assoc, hrest, hrest']

/-- The next word is the value that is awaited. -/
theorem reads_awaiting (hv : IsPlainWord v) (hnew : p ∉ given.map Prod.fst)
    (hvalue : IsValueOf p v) :
    Reads (awaiting given planSeen p) [v] (given ++ [(p, v)]) planSeen := by
  have hholds : Holds { ofGiven given planSeen with pending := some ⟨p, some v⟩ }
      (given ++ [(p, v)]) planSeen :=
    ⟨accept_ofGiven hnew hvalue, rfl⟩
  exact reads_cons hv.ne_mark (word_plain hv) hholds.reads_nil

theorem letters_of_spells {cs : List Char} {ws : List String} (h : SpellsLetters p v cs ws)
    (hd : Holds d given planSeen) (hnew : p ∉ given.map Prod.fst) (hvalue : IsValueOf p v) :
    ∃ d', d.letters cs = .ok d' ∧ Reads d' ws (given ++ [(p, v)]) planSeen := by
  have htaken := take_of_holds hd hnew hvalue
  cases h with
  | attached hc htakes hne heq =>
    refine ⟨_, ?_, (holds_ofGiven _ _).reads_nil⟩
    rw [letters_cons hc, if_pos htakes]
    split
    · next hnil => exact absurd (String.toList_eq_nil_iff.1 hnil) hne
    · next hcons => exact absurd (hcons ▸ List.cons_prefix_cons.2 ⟨rfl, List.nil_prefix⟩) heq
    · rw [String.ofList_toList, htaken]
  | assigned hc htakes =>
    refine ⟨_, ?_, (holds_ofGiven _ _).reads_nil⟩
    rw [letters_cons hc, if_pos htakes]
    change d.take p (String.ofList v.toList) = _
    rw [String.ofList_toList, htaken]
  | detached hc htakes hplain =>
    refine ⟨_, ?_, reads_awaiting hplain hnew hvalue⟩
    rw [letters_cons hc, if_pos htakes]
    exact await_of_holds hd

theorem reads_word_of_spells {cs : List Char} {ws : List String} {w : String}
    (h : SpellsLetters p v cs ws) {e : Draft} (hw : w ≠ "--") (hword : e.word w = d.letters cs)
    (hd : Holds d given planSeen) (hnew : p ∉ given.map Prod.fst) (hvalue : IsValueOf p v) :
    Reads e (w :: ws) (given ++ [(p, v)]) planSeen := by
  obtain ⟨d', hletters, hreads⟩ := letters_of_spells h hd hnew hvalue
  exact reads_cons hw (hword.trans hletters) hreads

theorem reads_flag {w : String} (hw : w ≠ "--") (hword : d.word w = d.flag p)
    (hd : Holds d given planSeen) (hnew : p ∉ given.map Prod.fst)
    (hflag : p = .verbose ∨ p = .noColor) : Reads d [w] (given ++ [(p, "")]) planSeen :=
  reads_cons hw (hword.trans (flag_of_holds hd hnew hflag)) (holds_ofGiven _ _).reads_nil

/-- A group of words gives its parameters, of which none has been given before. -/
theorem reads_of_spellsGroup {more : List (Parameter × String)} {ws : List String}
    (h : SpellsGroup more ws) (hd : Holds d given planSeen)
    (hnodup : ((given ++ more).map Prod.fst).Nodup) (hvalues : ∀ q ∈ more, IsValueOf q.1 q.2) :
    Reads d ws (given ++ more) planSeen := by
  have hnew : ∀ q ∈ more, q.1 ∉ given.map Prod.fst := by
    rw [List.map_append, List.nodup_append] at hnodup
    exact fun q hq hmem => hnodup.2.2 _ hmem _ (List.mem_map_of_mem hq) rfl
  cases h with
  | letters hletters =>
    obtain ⟨c, cs, rfl, hc⟩ := hletters.exists_cons
    exact reads_word_of_spells hletters (by simp [← String.toList_inj, hc]) (word_letters hc cs) hd
      (hnew _ List.mem_cons_self) (hvalues _ List.mem_cons_self)
  | @cluster p v cs ws hletters =>
    have hverbose := hnew _ List.mem_cons_self
    have hword : d.word (String.ofList ('-' :: 'v' :: cs)) =
        (ofGiven (given ++ [(.verbose, "")]) planSeen).letters cs := by
      rw [word_letters (by decide), letters_cons (p := .verbose) rfl,
        flag_of_holds hd hverbose (.inl rfl)]
      rfl
    have hp : p ∉ (given ++ [(Parameter.verbose, "")]).map Prod.fst := by
      rw [List.append_cons, List.map_append] at hnodup
      exact fun hmem => (List.nodup_append.1 hnodup).2.2 _ hmem _ List.mem_cons_self rfl
    rw [List.append_cons]
    exact reads_word_of_spells hletters (by simp [← String.toList_inj]) hword (holds_ofGiven _ _) hp
      (hvalues _ (List.mem_cons_of_mem _ List.mem_cons_self))
  | @assigned p name v hname htakes =>
    have htaken := take_of_holds hd (hnew _ List.mem_cons_self) (hvalues _ List.mem_cons_self)
    have hlong : d.long name (some v) = d.take p v := by
      rw [long_of_long? hname]
      exact if_pos htakes
    have hmark : "--" ++ name ++ "=" ++ v ≠ "--" := by
      intro h
      have hlength := congrArg (·.toList.length) h
      simp at hlength
    refine reads_cons hmark ?_ (holds_ofGiven _ _).reads_nil
    rw [word_long_some (Parameter.ofLong?_of_long? hname).2.1, hlong, htaken]
  | @detached p name v hname htakes hplain =>
    have hlong : d.long name none = d.await p := by
      rw [long_of_long? hname]
      exact if_pos htakes
    refine reads_cons (Parameter.ofLong?_of_long? hname).2.2 ?_
      (reads_awaiting hplain (hnew _ List.mem_cons_self) (hvalues _ List.mem_cons_self))
    rw [word_long_none (Parameter.ofLong?_of_long? hname).2.1, hlong, await_of_holds hd]
  | verbose =>
    have hword : d.word "-v" = (d.flag .verbose).bind (·.letters []) :=
      letters_cons (p := .verbose) rfl []
    refine reads_flag (by decide) (hword.trans ?_) hd (hnew _ List.mem_cons_self) (.inl rfl)
    cases d.flag .verbose <;> rfl
  | flag hname hflag =>
    refine reads_flag (Parameter.ofLong?_of_long? hname).2.2 ?_ hd (hnew _ List.mem_cons_self) hflag
    rw [word_long_none (Parameter.ofLong?_of_long? hname).2.1, long_of_long? hname]
    rcases hflag with rfl | rfl <;> rfl

/-- Groups of words give their parameters. -/
theorem reads_of_spellsOptions {more : List (Parameter × String)} {ws : List String}
    (h : SpellsOptions more ws) (hd : Holds d given planSeen)
    (hnodup : ((given ++ more).map Prod.fst).Nodup) (hvalues : ∀ q ∈ more, IsValueOf q.1 q.2) :
    Reads d ws (given ++ more) planSeen := by
  induction h generalizing d given with
  | nil => exact (List.append_nil given).symm ▸ hd.reads_nil
  | @append group more ws ws' hgroup _ ih =>
    obtain ⟨hgroupValues, hmoreValues⟩ := List.forall_mem_append.1 hvalues
    rw [← List.append_assoc] at hnodup ⊢
    have hfirst : ((given ++ group).map Prod.fst).Nodup := by
      rw [List.map_append] at hnodup
      exact (List.nodup_append.1 hnodup).1
    exact (reads_of_spellsGroup hgroup hd hfirst hgroupValues).append
      fun he => ih he hnodup hmoreValues

/-! ### The plan -/

/-- The draft with a plan that has not been looked at. -/
def beforePlan (given : List (Parameter × String)) (plan : String) : Draft :=
  { ofGiven given false with pending := some ⟨.plan, some plan⟩, planSeen := true }

theorem holds_beforePlan {plan : String} (hnew : Parameter.plan ∉ given.map Prod.fst)
    (hplan : plan ≠ "") : Holds (beforePlan given plan) (given ++ [(.plan, plan)]) true :=
  ⟨@accept_ofGiven given true .plan plan hnew hplan, rfl⟩

theorem bare_of_holds (hd : Holds d given false) (plan : String) :
    d.bare plan = .ok (beforePlan given plan) := by
  rw [bare, hd.planSeen, hd.settle]
  rfl

theorem word_plan {plan : String} (hd : Holds d given false) (hplain : IsPlainWord plan) :
    d.word plan = .ok (beforePlan given plan) := by
  rw [word_plain hplain]
  split
  · next hpending =>
    have hsettle := hd.settle
    rw [settle, hpending] at hsettle
    cases hsettle
  · exact bare_of_holds hd plan

theorem finish_of_holds {inv : Invocation} {options : List (Parameter × String)}
    (hd : Holds d given planSeen) (hplan : given.lookup .plan = some inv.plan)
    (hoptions : ∀ k ≠ .plan, given.lookup k = options.lookup k) (hgiven : inv.IsGivenBy options) :
    d.finish = .ok inv := by
  have hformat := Format.eq_bind_ofWord? hgiven.format
  have hfields : inv = ⟨inv.plan, given.lookup .addressStart, given.lookup .settings,
      (given.lookup .format).bind Format.ofWord?, (given.lookup .verbose).isSome,
      (given.lookup .noColor).isSome⟩ := by
    simp only [hoptions _ (by decide : Parameter.addressStart ≠ .plan),
      hoptions _ (by decide : Parameter.settings ≠ .plan),
      hoptions _ (by decide : Parameter.format ≠ .plan),
      hoptions _ (by decide : Parameter.verbose ≠ .plan),
      hoptions _ (by decide : Parameter.noColor ≠ .plan),
      ← hgiven.addressStart, ← hgiven.settings, ← hformat, ← hgiven.verbose, ← hgiven.noColor]
  have hread : d.finish = match given.lookup .plan with
      | none => .error (.fault (.missingPlan (given.map Prod.fst)))
      | some plan => .ok ⟨plan, given.lookup .addressStart, given.lookup .settings,
          (given.lookup .format).bind Format.ofWord?, (given.lookup .verbose).isSome,
          (given.lookup .noColor).isSome⟩ := by
    rw [finish, hd.settle]
    rfl
  rw [hread, hplan]
  exact congrArg _ hfields.symm

theorem ofCommandLine_of_holds {inv : Invocation} {options : List (Parameter × String)}
    {words : List String} (hwords : ({} : Draft).words words = .ok d)
    (hd : Holds d given planSeen) (hplan : given.lookup .plan = some inv.plan)
    (hoptions : ∀ k ≠ .plan, given.lookup k = options.lookup k) (hgiven : inv.IsGivenBy options)
    (program : String) : ofCommandLine (program :: words) = .ok inv := by
  have hread : ofWords words = .ok inv := by
    rw [ofWords, hwords]
    exact finish_of_holds hd hplan hoptions hgiven
  rw [ofCommandLine, List.tail_cons, hread]
  rfl

end Draft

/-! ### The options that are spelled -/

variable {inv : Invocation} {given more : List (Parameter × String)} {ws : List String}

theorem SpellsLetters.isOption {p : Parameter} {v : String} {cs : List Char}
    (h : SpellsLetters p v cs ws) : p.IsOption := by
  cases h with
  | attached hc htakes | assigned hc htakes | detached hc htakes =>
    exact Parameter.isOption_of_takesValue htakes fun hp => nomatch hp ▸ hc

theorem SpellsGroup.isOption (h : SpellsGroup given ws) : ∀ q ∈ given, q.1.IsOption := by
  have hlong {p : Parameter} {name : String} (hp : p.long? = some name) (htakes : p.takesValue) :
      p.IsOption :=
    Parameter.isOption_of_takesValue htakes fun h => nomatch h ▸ hp
  have hverbose : Parameter.verbose.IsOption := by decide
  cases h with
  | letters hp => exact List.forall_mem_singleton.2 hp.isOption
  | cluster hp => exact List.forall_mem_cons.2 ⟨hverbose, List.forall_mem_singleton.2 hp.isOption⟩
  | assigned hname htakes => exact List.forall_mem_singleton.2 (hlong hname htakes)
  | detached hname htakes => exact List.forall_mem_singleton.2 (hlong hname htakes)
  | verbose => exact List.forall_mem_singleton.2 hverbose
  | flag _ hflag => rcases hflag with rfl | rfl <;> exact List.forall_mem_singleton.2 (by decide)

theorem SpellsOptions.isOption (h : SpellsOptions given ws) : ∀ q ∈ given, q.1.IsOption := by
  induction h with
  | nil => nofun
  | append hgroup _ ih => exact List.forall_mem_append.2 ⟨hgroup.isOption, ih⟩

theorem SpellsOptions.plan_notMem (h : SpellsOptions given ws) :
    Parameter.plan ∉ given.map Prod.fst := by
  intro hmem
  obtain ⟨q, hq, hplan⟩ := List.mem_map.1 hmem
  exact (h.isOption q hq).1 hplan

/-- Each option that is given has a value that it can have. -/
theorem IsGivenBy.isValueOf (h : inv.IsGivenBy given) (hoptions : ∀ q ∈ given, q.1.IsOption) :
    ∀ q ∈ given, Draft.IsValueOf q.1 q.2 := by
  rintro ⟨p, v⟩ hmem
  have hlookup := lookup_of_mem h.once hmem
  cases p with
  | plan => exact absurd rfl (hoptions _ hmem).1
  | help => exact absurd rfl (hoptions _ hmem).2.1
  | version => exact absurd rfl (hoptions _ hmem).2.2
  | settings =>
    have hsettings := h.settings_ne
    rw [h.settings, hlookup] at hsettings
    exact fun hv => hsettings (congrArg some hv)
  | format =>
    have hformat := h.format
    rw [hlookup] at hformat
    generalize inv.format = f at hformat
    cases hformat with
    | some hnamed => exact ⟨_, hnamed⟩
  | addressStart | verbose | noColor => trivial

/-- Every spelling of an invocation is read as the invocation. -/
theorem ofCommandLine_of_spells {inv : Invocation} {words : List String} (h : inv.Spells words)
    (program : String) : ofCommandLine (program :: words) = .ok inv := by
  have hstart : Draft.Holds {} [] false := Draft.holds_ofGiven [] false
  cases h with
  | @among before behind ws ws' hne hplain hbefore hbehind hgiven =>
    have hvalues := List.forall_mem_append.1 (hgiven.isValueOf
      (List.forall_mem_append.2 ⟨hbefore.isOption, hbehind.isOption⟩))
    have honce := hgiven.once
    rw [List.map_append] at honce
    have hnodup : ((before ++ [(Parameter.plan, inv.plan)] ++ behind).map Prod.fst).Nodup := by
      rw [List.append_assoc, List.map_append]
      refine List.nodup_middle.2 (List.nodup_cons.2 ⟨fun hmem => ?_, honce⟩)
      exact (List.mem_append.1 hmem).elim hbefore.plan_notMem hbehind.plan_notMem
    have hfirst : Draft.Reads {} ws before false :=
      Draft.reads_of_spellsOptions hbefore hstart (List.nodup_append.1 honce).1 hvalues.1
    obtain ⟨d, hd, hwords⟩ := hfirst.append fun he =>
      Draft.reads_cons hplain.ne_mark (Draft.word_plan he hplain)
        (Draft.reads_of_spellsOptions hbehind (Draft.holds_beforePlan hbefore.plan_notMem hne)
          hnodup hvalues.2)
    have hread := hwords []
    rw [List.append_nil] at hread
    rw [List.append_assoc] at hd
    exact Draft.ofCommandLine_of_holds hread hd (lookup_append_cons hbefore.plan_notMem)
      (fun k hk => lookup_append_cons_of_ne hk) hgiven program
  | @marked given ws hne hoptions hgiven =>
    have hfirst : Draft.Reads {} ws given false :=
      Draft.reads_of_spellsOptions hoptions hstart hgiven.once (hgiven.isValueOf hoptions.isOption)
    obtain ⟨d, hd, hwords⟩ := hfirst
    have hread : ({} : Draft).words (ws ++ ["--", inv.plan]) =
        .ok (Draft.beforePlan given inv.plan) := by
      rw [hwords, Draft.words, if_pos rfl, List.foldlM_cons, Draft.bare_of_holds hd]
      rfl
    refine Draft.ofCommandLine_of_holds hread (Draft.holds_beforePlan hoptions.plan_notMem hne)
      (lookup_append_cons hoptions.plan_notMem) (fun k hk => ?_) hgiven program
    rw [lookup_append_cons_of_ne hk, List.append_nil]

/-- A flag in a cluster with a value that looks like an option, and options on either side of a
plan that is a dash. -/
theorem ofCommandLine_of_spells_cluster :
    Spells ⟨"-", some "--x", some "a=b", some .text, true, true⟩
        ["-vp=--x", "--no-color", "-", "--format=PLAIN", "-c", "a=b"] ∧
      ofCommandLine ["pg", "-vp=--x", "--no-color", "-", "--format=PLAIN", "-c", "a=b"] =
        .ok ⟨"-", some "--x", some "a=b", some .text, true, true⟩ := by
  have hcluster : SpellsGroup [(.verbose, ""), (.addressStart, "--x")] ["-vp=--x"] :=
    .cluster (.assigned (c := 'p') (v := "--x") rfl rfl)
  have hnoColor : SpellsGroup [(.noColor, "")] ["--no-color"] :=
    @SpellsGroup.flag .noColor "no-color" rfl (.inr rfl)
  have hformat : SpellsGroup [(.format, "PLAIN")] ["--format=PLAIN"] :=
    @SpellsGroup.assigned .format "format" "PLAIN" rfl rfl
  have hsettings : SpellsGroup [(.settings, "a=b")] ["-c", "a=b"] :=
    .letters (.detached (c := 'c') rfl rfl (by decide))
  have hspells : Spells ⟨"-", some "--x", some "a=b", some .text, true, true⟩
      ["-vp=--x", "--no-color", "-", "--format=PLAIN", "-c", "a=b"] :=
    .among (by decide) (by decide) (.append hcluster (.append hnoColor .nil))
      (.append hformat (.append hsettings .nil))
      ⟨by decide, rfl, rfl, by decide, .some (.inr (by decide)), rfl, rfl⟩
  exact ⟨hspells, ofCommandLine_of_spells hspells "pg"⟩

end Invocation

end DeletionGuard
