import DeletionGuard.Proofs.Report.Lines

/-!
# Reports that tell verdicts apart

Nothing in a report as text is escaped, and nothing but the words `: actions=[` parts an address
from the actions behind it. An address may hold these words, and so may an action. But outside of
quotes they do not occur in a list of actions, so the line of a change is that of no other change,
and the report of a verdict is that of no other verdict.
-/

namespace DeletionGuard.Report

/-! ### Places inside of single quotes -/

/-- Whether a place is inside of single quotes once another character has been passed. -/
def quotedAfter (quoted : Bool) (c : Char) : Bool :=
  if c = '\'' then !quoted else quoted

/-- The same for all of a text. -/
def quotedThrough (quoted : Bool) (cs : List Char) : Bool :=
  cs.foldl quotedAfter quoted

/-- Outside of quotes there is nothing but what parts one action from the next. -/
def PartsOnlyOutside : Bool → List Char → Prop
  | _, [] => True
  | quoted, c :: cs =>
    (quoted = true ∨ c = '\'' ∨ c = ',' ∨ c = ' ') ∧ PartsOnlyOutside (quotedAfter quoted c) cs

theorem quotedThrough_append (quoted : Bool) (cs ds : List Char) :
    quotedThrough quoted (cs ++ ds) = quotedThrough (quotedThrough quoted cs) ds :=
  List.foldl_append

theorem quotedThrough_of_notMem {cs : List Char} (h : '\'' ∉ cs) (quoted : Bool) :
    quotedThrough quoted cs = quoted := by
  induction cs with
  | nil => rfl
  | cons c cs ih =>
    rw [List.mem_cons, not_or] at h
    change quotedThrough (quotedAfter quoted c) cs = quoted
    rw [quotedAfter, if_neg (Ne.symm h.1)]
    exact ih h.2

theorem quotedThrough_not (quoted : Bool) (cs : List Char) :
    quotedThrough (!quoted) cs = !quotedThrough quoted cs := by
  induction cs generalizing quoted with
  | nil => rfl
  | cons c cs ih =>
    have hstep : quotedAfter (!quoted) c = !quotedAfter quoted c := by
      by_cases hc : c = '\'' <;> simp [quotedAfter, hc]
    change quotedThrough (quotedAfter (!quoted) c) cs = !quotedThrough (quotedAfter quoted c) cs
    rw [hstep, ih]

theorem partsOnlyOutside_append (quoted : Bool) (cs ds : List Char) :
    PartsOnlyOutside quoted (cs ++ ds) ↔
      PartsOnlyOutside quoted cs ∧ PartsOnlyOutside (quotedThrough quoted cs) ds := by
  induction cs generalizing quoted with
  | nil => exact ⟨fun h => ⟨trivial, h⟩, fun h => h.2⟩
  | cons c cs ih =>
    rw [List.cons_append, PartsOnlyOutside, PartsOnlyOutside, ih, and_assoc]
    rfl

theorem partsOnlyOutside_of_notMem {cs : List Char} (h : '\'' ∉ cs) : PartsOnlyOutside true cs := by
  induction cs with
  | nil => trivial
  | cons c cs ih =>
    rw [List.mem_cons, not_or] at h
    refine ⟨.inl rfl, ?_⟩
    rw [quotedAfter, if_neg (Ne.symm h.1)]
    exact ih h.2

/-! ### Lists of actions -/

/-- An action that ends at the second quote of those around it. -/
def IsQuotable (action : String) : Prop :=
  '\'' ∉ action.toList

/-- An action in quotes. -/
def quotedChars (action : String) : List Char :=
  '\'' :: (action.toList ++ ['\''])

/-- The actions behind the first one, each behind what parts it from the one before. -/
def moreChars (actions : List String) : List Char :=
  actions.flatMap fun a => ',' :: ' ' :: quotedChars a

/-- What stands between the brackets of a list of actions. -/
def innerChars : List String → List Char
  | [] => []
  | a :: actions => quotedChars a ++ moreChars actions

theorem toList_actionList (actions : List String) :
    (actionList actions).toList = '[' :: (innerChars actions ++ [']']) := by
  have hquoted (a : String) : ("'" ++ a ++ "'").toList = quotedChars a := by
    simp [quotedChars]
  have hinner : (", ".intercalate (actions.map fun a => "'" ++ a ++ "'")).toList =
      innerChars actions := by
    cases actions with
    | nil => rfl
    | cons a actions =>
      induction actions generalizing a with
      | nil => simp [innerChars, moreChars, quotedChars]
      | cons b actions ih =>
        have hmore := ih b
        rw [List.map_cons] at hmore
        rw [List.map_cons, List.map_cons, String.intercalate_cons_cons, String.toList_append,
          String.toList_append, hmore, hquoted, List.append_assoc]
        rfl
  rw [actionList, String.toList_append, String.toList_append, hinner]
  rfl

section

variable {action : String} {actions actions' : List String}

theorem quotedThrough_quotedChars (h : IsQuotable action) :
    quotedThrough false (quotedChars action) = false := by
  change quotedThrough true (action.toList ++ ['\'']) = false
  rw [quotedThrough_append, quotedThrough_of_notMem h]
  rfl

theorem partsOnlyOutside_quotedChars (h : IsQuotable action) :
    PartsOnlyOutside false (quotedChars action) := by
  refine ⟨.inr (.inl rfl), ?_⟩
  change PartsOnlyOutside true (action.toList ++ ['\''])
  rw [partsOnlyOutside_append]
  exact ⟨partsOnlyOutside_of_notMem h, .inr (.inl rfl), trivial⟩

/-- Behind a list of actions all quotes are closed, and outside of them there are only parting
marks. -/
theorem quoting_moreChars (h : ∀ a ∈ actions, IsQuotable a) :
    quotedThrough false (moreChars actions) = false ∧
      PartsOnlyOutside false (moreChars actions) := by
  induction actions with
  | nil => exact ⟨rfl, trivial⟩
  | cons a actions ih =>
    obtain ⟨ha, hactions⟩ := List.forall_mem_cons.1 h
    obtain ⟨hthrough, hparts⟩ := ih hactions
    have hcons : moreChars (a :: actions) = ',' :: ' ' :: (quotedChars a ++ moreChars actions) :=
      rfl
    constructor
    · change quotedThrough false (quotedChars a ++ moreChars actions) = false
      rw [quotedThrough_append, quotedThrough_quotedChars ha, hthrough]
    · rw [hcons]
      refine ⟨.inr (.inr (.inl rfl)), .inr (.inr (.inr rfl)), ?_⟩
      change PartsOnlyOutside false (quotedChars a ++ moreChars actions)
      rw [partsOnlyOutside_append, quotedThrough_quotedChars ha]
      exact ⟨partsOnlyOutside_quotedChars ha, hparts⟩

theorem quoting_innerChars (h : ∀ a ∈ actions, IsQuotable a) :
    quotedThrough false (innerChars actions) = false ∧
      PartsOnlyOutside false (innerChars actions) := by
  cases actions with
  | nil => exact ⟨rfl, trivial⟩
  | cons a actions =>
    obtain ⟨ha, hactions⟩ := List.forall_mem_cons.1 h
    obtain ⟨hthrough, hparts⟩ := quoting_moreChars hactions
    rw [innerChars, quotedThrough_append, partsOnlyOutside_append, quotedThrough_quotedChars ha]
    exact ⟨hthrough, partsOnlyOutside_quotedChars ha, hparts⟩

/-- The first quote behind the opening one ends an action. -/
theorem quotedChars_append_inj {a b : String} (ha : IsQuotable a) (hb : IsQuotable b)
    {cs ds : List Char} (h : quotedChars a ++ cs = quotedChars b ++ ds) : a = b ∧ cs = ds := by
  have hend {a : String} (ha : IsQuotable a) (cs : List Char) :
      (a.toList ++ '\'' :: cs).takeWhile (· != '\'') = a.toList := by
    rw [List.takeWhile_append_of_pos, List.takeWhile_cons_of_neg (by decide), List.append_nil]
    intro c hc
    rw [bne_iff_ne]
    rintro rfl
    exact ha hc
  simp only [quotedChars, List.cons_append, List.append_assoc, List.nil_append, List.cons.injEq,
    true_and] at h
  have haction : a.toList = b.toList := by rw [← hend ha cs, h, hend hb ds]
  rw [haction] at h
  exact ⟨String.toList_inj.1 haction, (List.cons.inj (List.append_cancel_left h)).2⟩

theorem moreChars_inj (h : ∀ a ∈ actions, IsQuotable a) (h' : ∀ a ∈ actions', IsQuotable a)
    (heq : moreChars actions = moreChars actions') : actions = actions' := by
  induction actions generalizing actions' with
  | nil =>
    cases actions' with
    | nil => rfl
    | cons b actions' => exact absurd heq (List.cons_ne_nil _ _).symm
  | cons a actions ih =>
    cases actions' with
    | nil => exact absurd heq (List.cons_ne_nil _ _)
    | cons b actions' =>
      obtain ⟨ha, hactions⟩ := List.forall_mem_cons.1 h
      obtain ⟨hb, hactions'⟩ := List.forall_mem_cons.1 h'
      change ',' :: ' ' :: (quotedChars a ++ moreChars actions) =
        ',' :: ' ' :: (quotedChars b ++ moreChars actions') at heq
      obtain ⟨rfl, hmore⟩ := quotedChars_append_inj ha hb (List.cons.inj (List.cons.inj heq).2).2
      rw [ih hactions hactions' hmore]

theorem innerChars_inj (h : ∀ a ∈ actions, IsQuotable a) (h' : ∀ a ∈ actions', IsQuotable a)
    (heq : innerChars actions = innerChars actions') : actions = actions' := by
  cases actions with
  | nil =>
    cases actions' with
    | nil => rfl
    | cons b actions' => exact absurd heq (List.cons_ne_nil _ _).symm
  | cons a actions =>
    cases actions' with
    | nil => exact absurd heq (List.cons_ne_nil _ _)
    | cons b actions' =>
      obtain ⟨ha, hactions⟩ := List.forall_mem_cons.1 h
      obtain ⟨hb, hactions'⟩ := List.forall_mem_cons.1 h'
      obtain ⟨rfl, hmore⟩ := quotedChars_append_inj ha hb heq
      rw [moreChars_inj hactions hactions' hmore]

end

/-! ### The line of a change -/

/-- What parts an address from the actions, behind its first character. -/
def actionsMark : List Char := " actions=[".toList

theorem quotedThrough_actionsMark (quoted : Bool) : quotedThrough quoted actionsMark = quoted := by
  apply quotedThrough_of_notMem
  decide

/-- A colon in a list of actions is inside of quotes, so behind it there is a quote too many for
another list of actions. -/
theorem innerChars_ne_append {actions : List String} (h : ∀ a ∈ actions, IsQuotable a)
    (before : List Char) {after : List Char} (hafter : quotedThrough false after = false) :
    innerChars actions ≠ before ++ ':' :: after := by
  intro heq
  obtain ⟨hthrough, hparts⟩ := quoting_innerChars h
  rw [heq, quotedThrough_append] at hthrough
  rw [heq, partsOnlyOutside_append] at hparts
  change quotedThrough (quotedThrough false before) after = false at hthrough
  cases hbefore : quotedThrough false before with
  | true =>
    rw [hbefore, ← Bool.not_false, quotedThrough_not, hafter] at hthrough
    exact absurd hthrough (by decide)
  | false =>
    rw [hbefore] at hparts
    exact absurd hparts.2.1 (by decide)

/-- The mark behind an address is not the end of what another one of the same line begins with. -/
theorem eq_nil_of_overlap {actions actions' : List String} (h : ∀ a ∈ actions, IsQuotable a)
    (h' : ∀ a ∈ actions', IsQuotable a) {more : List Char}
    (heq : ':' :: (actionsMark ++ innerChars actions) =
      more ++ ':' :: (actionsMark ++ innerChars actions')) : more = [] := by
  have hclosed : quotedThrough false (actionsMark ++ innerChars actions') = false := by
    rw [quotedThrough_append, quotedThrough_actionsMark, (quoting_innerChars h').1]
  have hcolon : ':' ∉ actionsMark := by decide
  cases more with
  | nil => rfl
  | cons c more =>
    have htail : actionsMark ++ innerChars actions =
        more ++ ':' :: (actionsMark ++ innerChars actions') := (List.cons.inj heq).2
    rcases List.append_eq_append_iff.1 htail with ⟨before, -, hinner⟩ | ⟨rest, hmark, hrest⟩
    · exact absurd hinner (innerChars_ne_append h before hclosed)
    · cases rest with
      | nil => exact absurd hrest.symm (innerChars_ne_append h [] hclosed)
      | cons d rest =>
        obtain rfl : ':' = d := (List.cons.inj hrest).1
        refine absurd ?_ hcolon
        rw [hmark]
        exact List.mem_append_right more List.mem_cons_self

theorem toList_changeText (rc : ResourceChange) :
    (changeText rc).toList = "  - ".toList ++
      (rc.address.toList ++ ':' :: (actionsMark ++ innerChars rc.actions) ++ [']']) := by
  have hmark (cs : List Char) : ": actions=".toList ++ '[' :: cs = ':' :: (actionsMark ++ cs) := rfl
  rw [changeText, String.toList_append, String.toList_append, String.toList_append,
    toList_actionList]
  simp only [List.append_assoc, List.cons_append, hmark]

theorem changeText_inj {rc rc' : ResourceChange} (h : ∀ a ∈ rc.actions, IsQuotable a)
    (h' : ∀ a ∈ rc'.actions, IsQuotable a) (heq : changeText rc = changeText rc') : rc = rc' := by
  rw [← String.toList_inj, toList_changeText, toList_changeText] at heq
  have hline := List.append_cancel_right (List.append_cancel_left heq)
  have hnil : ∃ more, rc'.address.toList = rc.address.toList ++ more ∧ more = [] := by
    rcases List.append_eq_append_iff.1 hline with ⟨more, haddress, hmore⟩ | ⟨more, haddress, hmore⟩
    · exact ⟨more, haddress, eq_nil_of_overlap h h' hmore⟩
    · obtain rfl := eq_nil_of_overlap h' h hmore
      exact ⟨[], by rw [haddress, List.append_nil, List.append_nil], rfl⟩
  obtain ⟨_, haddress, rfl⟩ := hnil
  rw [List.append_nil] at haddress
  rw [haddress] at hline
  have hactions := List.append_cancel_left (List.cons.inj (List.append_cancel_left hline)).2
  obtain ⟨address, actions⟩ := rc
  obtain ⟨address', actions'⟩ := rc'
  rw [ResourceChange.mk.injEq]
  exact ⟨(String.toList_inj.1 haddress).symm, innerChars_inj h h' hactions⟩

/-! ### Reports -/

/-- A change whose line can be told apart from that of every other one. -/
def IsTold (rc : ResourceChange) : Prop :=
  IsOneLine rc ∧ ∀ a ∈ rc.actions, IsQuotable a

theorem changes_inj {changes changes' : List ResourceChange} (h : ∀ rc ∈ changes, IsTold rc)
    (h' : ∀ rc ∈ changes', IsTold rc) (heq : changes.map changeText = changes'.map changeText) :
    changes = changes' := by
  induction changes generalizing changes' with
  | nil => exact (List.map_eq_nil_iff.1 heq.symm).symm
  | cons rc changes ih =>
    cases changes' with
    | nil => exact absurd heq (List.cons_ne_nil _ _)
    | cons rc' changes' =>
      obtain ⟨hrc, hchanges⟩ := List.forall_mem_cons.1 h
      obtain ⟨hrc', hchanges'⟩ := List.forall_mem_cons.1 h'
      obtain ⟨hline, hlines⟩ := List.cons.inj heq
      rw [changeText_inj hrc.2 hrc'.2 hline, ih hchanges hchanges' hlines]

/-- The first characters of a report, which its tag is made of, tell whether it is a success. -/
theorem tag_ok_ne_tag_error (r : Report) (cs ds : List Char) :
    (r.tag "32" "OK:").toList ++ cs ≠ (r.tag "31" "ERROR:").toList ++ ds := by
  intro h
  have hprefix := List.prefix_or_prefix_of_prefix (List.prefix_append _ cs)
    (h ▸ List.prefix_append _ ds)
  revert hprefix
  rw [tag, tag]
  cases r.color && r.terminal <;> decide

theorem join_lines_inj {r : Report} {v v' : Verdict} (h : ∀ rc ∈ v.changes, IsTold rc)
    (h' : ∀ rc ∈ v'.changes, IsTold rc)
    (heq : String.join ((r.lines v).map (· ++ "\n")) = String.join ((r.lines v').map (· ++ "\n"))) :
    v = v' := by
  have hsuccess : ∃ cs, (String.join ((r.lines .success).map (· ++ "\n"))).toList =
      (r.tag "32" "OK:").toList ++ cs := by
    rw [lines, List.map_singleton, String.join_cons, successText]
    simp only [String.toList_append, List.append_assoc]
    exact ⟨_, rfl⟩
  have hviolations (changes : List ResourceChange) :
      ∃ cs, (String.join ((r.lines (.violations changes)).map (· ++ "\n"))).toList =
        (r.tag "31" "ERROR:").toList ++ cs := by
    rw [lines, List.cons_append, List.map_cons, String.join_cons, headText]
    simp only [String.toList_append, List.append_assoc]
    exact ⟨_, rfl⟩
  have hdiffer (changes : List ResourceChange) :
      String.join ((r.lines .success).map (· ++ "\n")) ≠
        String.join ((r.lines (.violations changes)).map (· ++ "\n")) := by
    intro heq
    obtain ⟨cs, hcs⟩ := hsuccess
    obtain ⟨ds, hds⟩ := hviolations changes
    exact tag_ok_ne_tag_error r cs ds (hcs.symm.trans ((congrArg String.toList heq).trans hds))
  cases v with
  | success =>
    cases v' with
    | success => rfl
    | violations changes' => exact absurd heq (hdiffer changes')
  | violations changes =>
    cases v' with
    | success => exact absurd heq.symm (hdiffer changes)
    | violations changes' =>
      have hmiddle : String.join ((changes.map changeText).map (· ++ "\n")) =
          String.join ((changes'.map changeText).map (· ++ "\n")) := by
        rw [← String.toList_inj] at heq ⊢
        simp only [lines, List.map_append, List.cons_append, List.map_cons, String.join_append,
          String.join_cons, String.toList_append, List.append_assoc] at heq
        exact List.append_cancel_right (List.append_cancel_left (List.append_cancel_left heq))
      have hsplit {changes : List ResourceChange} (h : ∀ rc ∈ changes, IsTold rc) :
          (String.join ((changes.map changeText).map (· ++ "\n"))).splitOn "\n" =
            changes.map changeText ++ [""] := by
        refine Text.splitOn_join_lines fun line hline => ?_
        obtain ⟨rc, hrc, rfl⟩ := List.mem_map.1 hline
        exact lineEnd_notMem_changeText.2 (h rc hrc).1
      have hlines := (hsplit h).symm.trans ((congrArg (·.splitOn "\n") hmiddle).trans (hsplit h'))
      exact congrArg Verdict.violations (changes_inj h h' (List.append_cancel_right hlines))

/-- Reports as text are the same only for the same verdict, if no address or action has a line end
and no action a quote. -/
theorem bytes_text_eq_iff {r : Report} (hformat : r.format = .text) {v v' : Verdict}
    (h : ∀ rc ∈ v.changes, '\n' ∉ rc.address.toList ∧
      ∀ a ∈ rc.actions, '\n' ∉ a.toList ∧ '\'' ∉ a.toList)
    (h' : ∀ rc ∈ v'.changes, '\n' ∉ rc.address.toList ∧
      ∀ a ∈ rc.actions, '\n' ∉ a.toList ∧ '\'' ∉ a.toList) :
    (writePieces none (r.pieces v)).bytes = (writePieces none (r.pieces v')).bytes ↔ v = v' := by
  have htold {v : Verdict} (h : ∀ rc ∈ v.changes, '\n' ∉ rc.address.toList ∧
      ∀ a ∈ rc.actions, '\n' ∉ a.toList ∧ '\'' ∉ a.toList) : ∀ rc ∈ v.changes, IsTold rc := by
    intro rc hrc
    obtain ⟨haddress, hactions⟩ := h rc hrc
    exact ⟨⟨haddress, fun a ha => (hactions a ha).1⟩, fun a ha => (hactions a ha).2⟩
  constructor
  · intro hbytes
    have hwritten : writePieces none (r.pieces v) = writePieces none (r.pieces v') := by
      rw [writePieces_none, writePieces_none] at hbytes ⊢
      rw [Written.mk.injEq]
      exact ⟨hbytes, rfl⟩
    have htext := congrArg Written.text hwritten
    rw [text_pieces hformat, text_pieces hformat] at htext
    exact join_lines_inj (htold h) (htold h') htext
  · rintro rfl
    rfl

/-- An address that goes on with what looks like its actions, and an action that ends with the words
that stand before actions. -/
theorem bytes_text_ne_of_mark :
    (writePieces none (pieces ⟨"d", .text, false, false⟩
        (.violations [⟨"d: actions=['a']", ["delete"]⟩]))).bytes ≠
      (writePieces none (pieces ⟨"d", .text, false, false⟩
        (.violations [⟨"d", ["a", ": actions=["]⟩]))).bytes := by
  have hne : Verdict.violations [⟨"d: actions=['a']", ["delete"]⟩] ≠
      .violations [⟨"d", ["a", ": actions=["]⟩] := by decide
  exact fun h => hne ((bytes_text_eq_iff rfl (by decide) (by decide)).1 h)

end DeletionGuard.Report
