import DeletionGuard.Proofs.Plan.Tree
import DeletionGuard.Proofs.Sink
import DeletionGuard.Proofs.Text.Split
import DeletionGuard.Report

/-!
# Reports as lines of text

A report as text is made up of lines: a line with a tag and, if there are violations, a line for
each of them and a hint. Nothing in a report is escaped, so it has these lines and no others as long
as no address and no action among the violations holds a line end, and no longer.
-/

namespace DeletionGuard.Report

variable {r : Report}

/-! ### The lines -/

/-- A change whose line has no line end but its own. -/
def IsOneLine (rc : ResourceChange) : Prop :=
  '\n' ∉ rc.address.toList ∧ ∀ a ∈ rc.actions, '\n' ∉ a.toList

/-- The line of a change, without its end. -/
def changeText (rc : ResourceChange) : String :=
  "  - " ++ rc.address ++ ": actions=" ++ actionList rc.actions

/-- The line of a success, without its end. -/
def successText (r : Report) : String :=
  r.tag "32" "OK:" ++ " no protected resources (prefix '" ++ r.addressStart ++
    "') are deleted or replaced."

/-- The first line of a report of violations, without its end. -/
def headText (r : Report) : String :=
  r.tag "31" "ERROR:" ++ " protected resources scheduled for deletion or replacement:"

/-- The last line of a report of violations, without its end. -/
def hintText (r : Report) : String :=
  "Hint:" ++ " remove the delete/replace of these resources from the plan, " ++
    "or rename them outside the '" ++ r.addressStart ++ "' convention if data loss is intended."

/-- The lines of a report, without their ends. -/
def lines (r : Report) : Verdict → List String
  | .success => [r.successText]
  | .violations changes => r.headText :: changes.map changeText ++ [r.hintText]

theorem join_successLine (r : Report) : String.join r.successLine = r.successText ++ "\n" := by
  rw [successLine, successText]
  simp only [String.join_cons, String.join_nil, String.append_assoc]
  rfl

theorem join_violationsHead (r : Report) : String.join r.violationsHead = r.headText ++ "\n" := by
  rw [violationsHead, headText, String.append_assoc, String.join_cons, String.join_cons]
  rfl

theorem join_changeLine (rc : ResourceChange) :
    String.join (changeLine rc) = changeText rc ++ "\n" := by
  rw [changeLine, changeText]
  simp only [String.join_cons, String.join_nil, String.append_assoc]
  rfl

theorem join_hintLine (r : Report) : String.join r.hintLine = r.hintText ++ "\n" := by
  have hline (a b c d e : String) : String.join [a, b, c, d, e] = a ++ b ++ c ++ d ++ e := by
    simp only [String.join_cons, String.join_nil, String.append_empty, String.append_assoc]
  have hhint : "Hint: remove the delete/replace of these resources from the plan, " =
      "Hint:" ++ " remove the delete/replace of these resources from the plan, " := by
    decide +kernel
  rw [hintLine, hintText, hline, ← hhint]

theorem join_textPieces (r : Report) (v : Verdict) :
    String.join (r.textPieces v) = String.join ((r.lines v).map (· ++ "\n")) := by
  cases v with
  | success =>
    rw [textPieces, join_successLine, lines, List.map_singleton, String.join_cons, String.join_nil,
      String.append_empty]
  | violations changes =>
    have hchanges : String.join (changes.flatMap changeLine) =
        String.join ((changes.map changeText).map (· ++ "\n")) := by
      induction changes with
      | nil => rfl
      | cons rc rcs ih =>
        rw [List.flatMap_cons, String.join_append, join_changeLine, ih, List.map_cons,
          List.map_cons, String.join_cons]
    rw [textPieces, String.join_append, String.join_append, join_violationsHead, hchanges,
      join_hintLine, lines, List.map_append, List.map_cons, List.map_singleton, String.join_append,
      String.join_cons, String.join_cons, String.join_nil, String.append_empty]

theorem text_pieces (hformat : r.format = .text) (v : Verdict) :
    (writePieces none (r.pieces v)).text = String.join ((r.lines v).map (· ++ "\n")) := by
  rw [text_writePieces_none, pieces, hformat, join_textPieces]

/-! ### Line ends in lines -/

theorem lineEnd_notMem_actionList {actions : List String} :
    '\n' ∉ (actionList actions).toList ↔ ∀ a ∈ actions, '\n' ∉ a.toList := by
  have hquoted (a : String) : '\n' ∉ ("'" ++ a ++ "'").toList ↔ '\n' ∉ a.toList := by simp
  have hjoined : '\n' ∉ (", ".intercalate (actions.map fun a => "'" ++ a ++ "'")).toList ↔
      ∀ a ∈ actions, '\n' ∉ a.toList := by
    induction actions with
    | nil => simp
    | cons a as ih =>
      cases as with
      | nil => simp
      | cons b bs =>
        have hmore : (b :: bs).map (fun a => "'" ++ a ++ "'") ≠ [] := nofun
        rw [List.map_cons, String.intercalate_cons_of_ne_nil hmore, String.toList_append,
          String.toList_append, List.mem_append, List.mem_append, not_or, not_or, hquoted, ih,
          List.forall_mem_cons (a := a)]
        simp
  rw [actionList, String.toList_append, String.toList_append, List.mem_append, List.mem_append,
    not_or, not_or, hjoined]
  simp

theorem lineEnd_notMem_changeText {rc : ResourceChange} :
    '\n' ∉ (changeText rc).toList ↔ IsOneLine rc := by
  simp [changeText, IsOneLine, lineEnd_notMem_actionList]


section Plain

variable (hplain : (r.color && r.terminal) = false)
include hplain

theorem tag_of_plain (code word : String) : r.tag code word = word := by
  rw [tag, hplain]
  rfl

theorem lineEnd_notMem_lines (hstart : '\n' ∉ r.addressStart.toList) {v : Verdict}
    (h : ∀ rc ∈ v.changes, IsOneLine rc) : ∀ line ∈ r.lines v, '\n' ∉ line.toList := by
  cases v with
  | success =>
    rw [lines, List.forall_mem_singleton, successText, tag_of_plain hplain]
    simpa using hstart
  | violations changes =>
    have hhead : '\n' ∉ r.headText.toList := by
      rw [headText, tag_of_plain hplain]
      decide
    have hhint : '\n' ∉ r.hintText.toList := by
      rw [hintText]
      simp only [String.toList_append, List.mem_append, not_or]
      exact ⟨⟨⟨⟨by decide, by decide +kernel⟩, by decide +kernel⟩, hstart⟩, by decide +kernel⟩
    intro line hline
    rcases List.mem_append.1 hline with hline | hline
    · rcases List.mem_cons.1 hline with rfl | hline
      · exact hhead
      · obtain ⟨rc, hrc, rfl⟩ := List.mem_map.1 hline
        exact lineEnd_notMem_changeText.2 (h rc hrc)
    · exact List.mem_singleton.1 hline ▸ hhint

theorem headText_of_plain :
    r.headText = "ERROR:" ++ " protected resources scheduled for deletion or replacement:" := by
  rw [headText, tag_of_plain hplain]

theorem ok_not_prefix_lines (changes : List ResourceChange) :
    ∀ line ∈ r.lines (.violations changes), ¬ "OK:".toList <+: line.toList := by
  have hother {tag rest : String} {c : Char} {cs : List Char} (htag : tag.toList = c :: cs)
      (hc : 'O' ≠ c) : ¬ "OK:".toList <+: (tag ++ rest).toList := by
    have hok : "OK:".toList = 'O' :: ['K', ':'] := rfl
    rw [String.toList_append, htag, hok, List.cons_append, List.cons_prefix_cons]
    exact fun h => hc h.1
  intro line hline
  rcases List.mem_append.1 hline with hline | hline
  · rcases List.mem_cons.1 hline with rfl | hline
    · rw [headText_of_plain hplain]
      exact hother rfl (by decide)
    · obtain ⟨rc, -, rfl⟩ := List.mem_map.1 hline
      rw [changeText, String.append_assoc, String.append_assoc]
      exact hother rfl (by decide)
  · rw [List.mem_singleton.1 hline, hintText, String.append_assoc, String.append_assoc,
      String.append_assoc]
    exact hother rfl (by decide)

end Plain

/-! ### What a report is split into -/

theorem prefix_append {a b : String} : a.toList <+: (a ++ b).toList := by
  rw [String.toList_append]
  exact List.prefix_append _ _

/-- A report in plain text is its tagged lines with one for each violation, unless one of them has a
line end in it. -/
theorem splitOn_lineEnd_text (hformat : r.format = .text) (hplain : (r.color && r.terminal) = false)
    (hstart : '\n' ∉ r.addressStart.toList) (plan : Plan) {v : Verdict} {text : String}
    (hv : Guard.judge ⟨r.addressStart⟩ plan = v)
    (htext : (writePieces none (r.pieces v)).text = text) :
    match v with
    | .success => ∃ line, text.splitOn "\n" = [line, ""] ∧ "OK:".toList <+: line.toList
    | .violations changes =>
      (∀ rc ∈ changes, '\n' ∉ rc.address.toList ∧ ∀ a ∈ rc.actions, '\n' ∉ a.toList) ↔
        ∃ head hint,
          text.splitOn "\n" = head :: changes.map (fun rc =>
            "  - " ++ rc.address ++ ": actions=" ++ actionList rc.actions) ++ [hint, ""] ∧
          "ERROR:".toList <+: head.toList ∧ "Hint:".toList <+: hint.toList ∧
          ∀ line ∈ text.splitOn "\n", ¬ "OK:".toList <+: line.toList := by
  have hjoined := text_pieces hformat v
  rw [htext] at hjoined
  cases v with
  | success =>
    have hlines := lineEnd_notMem_lines hplain hstart (v := .success) nofun
    have hsplit := Text.splitOn_join_lines hlines
    refine ⟨r.successText, hjoined ▸ hsplit, ?_⟩
    rw [successText, tag_of_plain hplain, String.append_assoc, String.append_assoc]
    exact prefix_append
  | violations changes =>
    refine ⟨fun h => ⟨r.headText, r.hintText, ?_⟩, ?_⟩
    · have hlines := lineEnd_notMem_lines hplain hstart (v := .violations changes) h
      have hsplit := Text.splitOn_join_lines hlines
      rw [← hjoined] at hsplit
      have hhead : "ERROR:".toList <+: r.headText.toList := by
        rw [headText_of_plain hplain]
        exact prefix_append
      have hhint : "Hint:".toList <+: r.hintText.toList := by
        rw [hintText, String.append_assoc, String.append_assoc, String.append_assoc]
        exact prefix_append
      refine ⟨?_, hhead, hhint, fun line hline => ?_⟩
      · rw [hsplit, lines, List.append_assoc]
        rfl
      · rw [hsplit, List.mem_append, List.mem_singleton] at hline
        rcases hline with hline | rfl
        · exact ok_not_prefix_lines hplain changes line hline
        · decide
    · rintro ⟨head, hint, hsplit, -⟩ rc hrc
      refine lineEnd_notMem_changeText.1 (Text.lineEnd_notMem_of_mem_splitOn (s := text) ?_)
      rw [hsplit]
      exact List.mem_append_left _ (List.mem_cons_of_mem head (List.mem_map.2 ⟨rc, hrc, rfl⟩))

/-- An address with a quote in it is on the line of its violation. -/
theorem splitOn_lineEnd_text_quote :
    ∃ head hint, (writePieces none (pieces ⟨"a", .text, false, false⟩
        (.violations [⟨"a['b']", ["delete"]⟩]))).text.splitOn "\n" =
          [head, "  - a['b']: actions=['delete']", hint, ""] := by
  have hjudge : Guard.judge ⟨"a"⟩ ⟨[⟨"a['b']", ["delete"]⟩]⟩ =
      .violations [⟨"a['b']", ["delete"]⟩] := by decide +kernel
  obtain ⟨head, hint, hsplit, -⟩ := (@splitOn_lineEnd_text ⟨"a", .text, false, false⟩ rfl rfl
    (by decide) ⟨[⟨"a['b']", ["delete"]⟩]⟩ _ _ hjudge rfl).1 (by decide)
  exact ⟨head, hint, hsplit⟩

/-- A line end in an address makes a report have a line that begins with `OK:` although it has a
violation. -/
theorem exists_line_ok_of_violation :
    ∃ plan, Plan.parse ("\x7b\"resource_changes\":[\x7b" ++
        "\"address\":\"google_compute_disk.data_\\nOK:\"," ++
        "\"change\":\x7b\"actions\":[\"delete\"]\x7d\x7d]\x7d") = .ok plan ∧
      (Guard.judge ⟨defaultAddressStart⟩ plan).changes.length = 1 ∧
      ((writePieces none (pieces ⟨defaultAddressStart, .text, false, false⟩
        (Guard.judge ⟨defaultAddressStart⟩ plan))).text.splitOn "\n").length = 5 ∧
      ∃ line ∈ (writePieces none (pieces ⟨defaultAddressStart, .text, false, false⟩
          (Guard.judge ⟨defaultAddressStart⟩ plan))).text.splitOn "\n",
        "OK:".toList <+: line.toList := by
  refine ⟨⟨[⟨"google_compute_disk.data_\nOK:", ["delete"]⟩]⟩,
    Plan.eq_ok_of_toOption (by decide +kernel), by decide +kernel, ?_⟩
  have hlines : String.join (pieces ⟨defaultAddressStart, .text, false, false⟩
      (Guard.judge ⟨defaultAddressStart⟩ ⟨[⟨"google_compute_disk.data_\nOK:", ["delete"]⟩]⟩)) =
      String.join ([headText ⟨defaultAddressStart, .text, false, false⟩,
        "  - google_compute_disk.data_", "OK:: actions=['delete']",
        hintText ⟨defaultAddressStart, .text, false, false⟩].map (· ++ "\n")) := by
    decide +kernel
  rw [text_writePieces_none, hlines, Text.splitOn_join_lines (by decide +kernel)]
  exact ⟨rfl, "OK:: actions=['delete']", by simp, by decide⟩

end DeletionGuard.Report
