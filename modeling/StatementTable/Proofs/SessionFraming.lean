import StatementTable.Proofs.ReplyLines

/-!
# The framing of sessions

A session is cut into lines, and each line is handled by itself: it is answered or not, and it
ends the session or not, whatever came before it.  The rules for a line and for the lines of a
session are stated as relations, which the service meets.  Each answer takes up one line of the
output, so answers can be counted by their newlines, and what a client sends after a whole line
only adds to what was answered before.
-/

namespace StatementTable.Service

open Json (Value)

/-! ## Lines -/

/-- Bytes are cut after each newline.  What follows the last newline is a line if there is
anything. -/
inductive CutInto : List UInt8 → List (List UInt8) → Prop where
  | nil : CutInto [] []
  | unterminated {line : List UInt8} (hne : line ≠ []) (hline : newline ∉ line) :
      CutInto line [line]
  | terminated {line bytes : List UInt8} {lines : List (List UInt8)} (hline : newline ∉ line)
      (h : CutInto bytes lines) :
      CutInto (line ++ newline :: bytes) ((line ++ [newline]) :: lines)

/-- Lines with a byte in front of the first one. -/
def consFirst (byte : UInt8) : List (List UInt8) → List (List UInt8)
  | [] => [[byte]]
  | line :: lines => (byte :: line) :: lines

theorem splitLines_cons {byte : UInt8} (h : byte ≠ newline) (bytes : List UInt8) :
    splitLines (byte :: bytes) = consFirst byte (splitLines bytes) := by
  rw [splitLines, if_neg h]
  cases splitLines bytes <;> rfl

theorem CutInto.cons
    {bytes : List UInt8} {lines : List (List UInt8)} (h : CutInto bytes lines) {byte : UInt8}
    (hbyte : byte ≠ newline) :
    CutInto (byte :: bytes) (consFirst byte lines) := by
  cases h with
  | nil =>
      have hline : newline ∉ [byte] := by simpa using hbyte.symm
      exact .unterminated (List.cons_ne_nil byte []) hline
  | unterminated _ hline =>
      have hcons : newline ∉ byte :: bytes := by simp [hbyte.symm, hline]
      exact .unterminated (List.cons_ne_nil byte bytes) hcons
  | @terminated line bytes lines hline h =>
      have hcons : newline ∉ byte :: line := by simp [hbyte.symm, hline]
      exact .terminated hcons h

theorem cutInto_splitLines (bytes : List UInt8) : CutInto bytes (splitLines bytes) := by
  induction bytes with
  | nil => exact .nil
  | cons byte bytes ih =>
      by_cases hbyte : byte = newline
      · rw [splitLines, if_pos hbyte, hbyte]
        exact .terminated (List.not_mem_nil (a := newline)) ih
      · rw [splitLines_cons hbyte]
        exact ih.cons hbyte

theorem splitLines_of_notMem {line : List UInt8} (hne : line ≠ []) (h : newline ∉ line) :
    splitLines line = [line] := by
  induction line with
  | nil => exact absurd rfl hne
  | cons byte line ih =>
      obtain ⟨hbyte, hline⟩ := not_or.mp (List.mem_cons.not.mp h)
      rw [splitLines_cons (Ne.symm hbyte)]
      cases line with
      | nil => rfl
      | cons next line => rw [ih (List.cons_ne_nil next line) hline, consFirst]

theorem splitLines_line {line : List UInt8} (h : newline ∉ line) (bytes : List UInt8) :
    splitLines (line ++ newline :: bytes) = (line ++ [newline]) :: splitLines bytes := by
  induction line with
  | nil => rw [List.nil_append, splitLines, if_pos rfl, List.nil_append]
  | cons byte line ih =>
      obtain ⟨hbyte, hline⟩ := not_or.mp (List.mem_cons.not.mp h)
      rw [List.cons_append, splitLines_cons (Ne.symm hbyte), ih hline, consFirst,
        List.cons_append]

/-- There is one way to cut bytes. -/
theorem cutInto_iff {bytes : List UInt8} {lines : List (List UInt8)} :
    CutInto bytes lines ↔ lines = splitLines bytes := by
  constructor
  · intro h
    induction h with
    | nil => rfl
    | unterminated hne hline => exact (splitLines_of_notMem hne hline).symm
    | terminated hline _ ih => rw [splitLines_line hline, ih]
  · rintro rfl
    exact cutInto_splitLines bytes

/-- The last line of some bytes is complete. -/
def EndsLine (bytes : List UInt8) : Prop :=
  ∀ byte ∈ bytes.getLast?, byte = newline

/-- Bytes after a complete line begin a line of their own. -/
theorem splitLines_append {bytes : List UInt8} (h : EndsLine bytes) (more : List UInt8) :
    splitLines (bytes ++ more) = splitLines bytes ++ splitLines more := by
  obtain ⟨lines, hcut⟩ : ∃ lines, CutInto bytes lines := ⟨_, cutInto_splitLines bytes⟩
  induction hcut with
  | nil => rfl
  | unterminated hne hline =>
      have hlast := h _ (List.getLast?_eq_some_getLast hne)
      exact absurd (hlast ▸ List.getLast_mem hne) hline
  | @terminated line bytes _ hline _ ih =>
      have hends : EndsLine bytes := by
        intro byte hbyte
        apply h
        rw [List.getLast?_append, List.getLast?_cons, hbyte]
        rfl
      rw [List.append_assoc, List.cons_append, splitLines_line hline, ih hends,
        splitLines_line hline, List.cons_append]

/-! ## Handling a line -/

/-- How a line is handled: what it is answered, if anything, and whether it ends the session. -/
inductive Handles : List UInt8 → Option Value → Bool → Prop where
  /-- A line that is not text ends the session without an answer. -/
  | notText {line : List UInt8} (h : ∀ text : String, text.toUTF8.toList ≠ line) :
      Handles line none true
  /-- A blank line is passed over. -/
  | blank {text : String} (h : ∀ c ∈ text.toList, Text.isBlank c = true) :
      Handles text.toUTF8.toList none false
  /-- A request that fails is answered, and the session goes on. -/
  | failed {text : String} {error : Failure}
      (hrequest : ¬ ∀ c ∈ text.toList, Text.isBlank c = true)
      (h : execute (Text.trim text) = .error error) :
      Handles text.toUTF8.toList (some (failure error)) false
  /-- A request that succeeds is answered, and ends the session if it stops the service. -/
  | succeeded {text : String} {reply : Reply}
      (hrequest : ¬ ∀ c ∈ text.toList, Text.isBlank c = true)
      (h : execute (Text.trim text) = .ok reply) :
      Handles text.toUTF8.toList (some (success reply.data)) reply.shutdown

namespace Reaction

def reply? : Reaction → Option Value
  | .ignore | .hangUp => none
  | .answer reply | .stop reply => some reply

def ends : Reaction → Bool
  | .ignore | .answer _ => false
  | .hangUp | .stop _ => true

end Reaction

/-- A text is trimmed to nothing exactly if it is blank. -/
theorem isEmpty_trim_iff {text : String} :
    (Text.trim text).isEmpty = true ↔ ∀ c ∈ text.toList, Text.isBlank c = true := by
  have hempty : (Text.trim text).isEmpty = true ↔
      ∀ c ∈ text.toList.dropWhile Text.isBlank, Text.isBlank c = true := by
    simp [Text.trim, Text.dropTrailing, String.isEmpty_iff, ← String.toList_inj,
      List.dropWhile_eq_nil_iff]
  rw [hempty]
  constructor
  · intro h c hc
    rw [← List.takeWhile_append_dropWhile (p := Text.isBlank) (l := text.toList),
      List.mem_append] at hc
    exact hc.elim List.mem_takeWhile_imp (h c)
  · intro h c hc
    exact h c ((List.dropWhile_sublist _).subset hc)

theorem react_of_notText
    {line : List UInt8} (h : ∀ text : String, text.toUTF8.toList ≠ line) :
    react line = .hangUp := by
  cases hline : decodeLine line with
  | none => rw [react, hline]
  | some text => exact absurd (decodeLine_eq_some_iff.mp hline) (h text)

theorem react_of_blank {text : String} (h : ∀ c ∈ text.toList, Text.isBlank c = true) :
    react text.toUTF8.toList = .ignore := by
  rw [react, decodeLine_eq_some_iff.mpr rfl]
  exact if_pos (isEmpty_trim_iff.mpr h)

theorem react_of_request {text : String} (h : ¬ ∀ c ∈ text.toList, Text.isBlank c = true) :
    react text.toUTF8.toList = respond (Text.trim text) := by
  rw [react, decodeLine_eq_some_iff.mpr rfl]
  exact if_neg (isEmpty_trim_iff.not.mpr h)

theorem respond_of_error {line : String} {error : Failure} (h : execute line = .error error) :
    respond line = .answer (failure error) := by
  rw [respond, h]

theorem respond_of_ok {line : String} {reply : Reply} (h : execute line = .ok reply) :
    (respond line).reply? = some (success reply.data) ∧ (respond line).ends = reply.shutdown := by
  rw [respond, h]
  cases hshutdown : reply.shutdown <;> simp [hshutdown, Reaction.reply?, Reaction.ends]

/-- Every line is handled. -/
theorem handles_react (line : List UInt8) :
    Handles line (react line).reply? (react line).ends := by
  by_cases htext : ∃ text : String, text.toUTF8.toList = line
  · obtain ⟨text, rfl⟩ := htext
    by_cases hblank : ∀ c ∈ text.toList, Text.isBlank c = true
    · rw [react_of_blank hblank]
      exact .blank hblank
    · rw [react_of_request hblank]
      cases hexecute : execute (Text.trim text) with
      | error error =>
          rw [respond_of_error hexecute]
          exact .failed hblank hexecute
      | ok reply =>
          rw [(respond_of_ok hexecute).1, (respond_of_ok hexecute).2]
          exact .succeeded hblank hexecute
  · have hnot : ∀ text : String, text.toUTF8.toList ≠ line := not_exists.mp htext
    rw [react_of_notText hnot]
    exact .notText hnot

/-- Every line is handled in one way. -/
theorem handles_iff {line : List UInt8} {answer : Option Value} {ends : Bool} :
    Handles line answer ends ↔ answer = (react line).reply? ∧ ends = (react line).ends := by
  constructor
  · intro h
    cases h with
    | notText hnot => rw [react_of_notText hnot]; exact ⟨rfl, rfl⟩
    | blank hblank => rw [react_of_blank hblank]; exact ⟨rfl, rfl⟩
    | failed hrequest hexecute =>
        rw [react_of_request hrequest, respond_of_error hexecute]; exact ⟨rfl, rfl⟩
    | succeeded hrequest hexecute =>
        rw [react_of_request hrequest, (respond_of_ok hexecute).1, (respond_of_ok hexecute).2]
        exact ⟨rfl, rfl⟩
  · rintro ⟨rfl, rfl⟩
    exact handles_react line

/-- What a line is answered can be printed on a line. -/
theorem Handles.printable
    {line : List UInt8} {reply : Value} {ends : Bool} (h : Handles line (some reply) ends) :
    Printable reply := by
  cases h with
  | failed _ _ => exact printable_failure _
  | succeeded _ hexecute => exact printable_success hexecute

/-! ## Handling the lines of a session -/

/-- Lines are handled in order until one of them ends the session. -/
inductive Serves : List (List UInt8) → List Value → Prop where
  | nil : Serves [] []
  | next {line : List UInt8} {answer : Option Value} {lines : List (List UInt8)}
      {replies : List Value} (h : Handles line answer false) (hrest : Serves lines replies) :
      Serves (line :: lines) (answer.toList ++ replies)
  | last {line : List UInt8} {answer : Option Value} (h : Handles line answer true)
      (lines : List (List UInt8)) : Serves (line :: lines) answer.toList

theorem replies_handle_cons (line : List UInt8) (lines : List (List UInt8)) :
    (handle (line :: lines)).replies =
      (react line).reply?.toList ++
        if (react line).ends then [] else (handle lines).replies := by
  rw [handle]
  cases react line <;> rfl

theorem serves_iff {lines : List (List UInt8)} {replies : List Value} :
    Serves lines replies ↔ replies = (handle lines).replies := by
  constructor
  · intro h
    induction h with
    | nil => rfl
    | next h _ ih =>
        obtain ⟨rfl, hends⟩ := handles_iff.mp h
        rw [replies_handle_cons, ← hends, ih]
        rfl
    | last h lines =>
        obtain ⟨rfl, hends⟩ := handles_iff.mp h
        rw [replies_handle_cons, ← hends, if_pos rfl, List.append_nil]
  · rintro rfl
    induction lines with
    | nil => exact .nil
    | cons line lines ih =>
        have hline := handles_react line
        rw [replies_handle_cons]
        cases hends : (react line).ends with
        | true =>
            rw [hends] at hline
            rw [if_pos rfl, List.append_nil]
            exact .last hline lines
        | false =>
            rw [hends] at hline
            exact .next hline ih

theorem Serves.printable
    {lines : List (List UInt8)} {replies : List Value} (h : Serves lines replies) :
    ∀ reply ∈ replies, Printable reply := by
  induction h with
  | nil => simp
  | @next _ answer _ _ h _ ih =>
      intro reply hreply
      rcases List.mem_append.mp hreply with hanswer | hrest
      · obtain rfl := Option.mem_toList.mp hanswer
        exact h.printable
      · exact ih reply hrest
  | last h =>
      intro reply hreply
      obtain rfl := Option.mem_toList.mp hreply
      exact h.printable

/-- Lines of which none ends the session do not keep later lines from being handled. -/
theorem replies_handle_append
    {lines : List (List UInt8)} (h : ∀ line ∈ lines, (react line).ends = false)
    (more : List (List UInt8)) :
    (handle (lines ++ more)).replies = (handle lines).replies ++ (handle more).replies := by
  induction lines with
  | nil => rfl
  | cons line lines ih =>
      rw [List.cons_append, replies_handle_cons, replies_handle_cons, h line (.head _),
        ih fun line hline => h line (.tail _ hline)]
      simp

/-- The line is a request that succeeds and stops the service. -/
def AsksToStop (line : List UInt8) : Prop :=
  ∃ text reply, text.toUTF8.toList = line ∧ (¬ ∀ c ∈ text.toList, Text.isBlank c = true) ∧
    execute (Text.trim text) = .ok reply ∧ reply.shutdown = true

/-- The line is handled: none of the lines before it ends the session. -/
def ComesTo (lines : List (List UInt8)) (line : List UInt8) : Prop :=
  ∃ before after, lines = before ++ line :: after ∧
    ∀ earlier ∈ before, ∀ answer, ¬ Handles earlier answer true

theorem asksToStop_iff {line : List UInt8} :
    AsksToStop line ↔ ∃ reply, react line = .stop reply := by
  constructor
  · rintro ⟨text, reply, rfl, hrequest, hexecute, hshutdown⟩
    refine ⟨success reply.data, ?_⟩
    rw [react_of_request hrequest, respond, hexecute]
    exact if_pos hshutdown
  · rintro ⟨reply, hstop⟩
    have hline := handles_react line
    rw [hstop] at hline
    generalize hends : (Reaction.stop reply).ends = ends at hline
    cases hline with
    | failed _ _ => cases hends
    | succeeded hrequest hexecute => exact ⟨_, _, rfl, hrequest, hexecute, hends.symm⟩

theorem comesTo_cons_iff {first line : List UInt8} {lines : List (List UInt8)} :
    ComesTo (first :: lines) line ↔
      line = first ∨ (react first).ends = false ∧ ComesTo lines line := by
  have hends : (∀ answer, ¬ Handles first answer true) ↔ (react first).ends = false := by
    simp [handles_iff]
  constructor
  · rintro ⟨before, after, hlines, hbefore⟩
    cases before with
    | nil => exact .inl (List.cons.inj hlines).1.symm
    | cons earlier before =>
        obtain ⟨rfl, rfl⟩ := List.cons.inj hlines
        obtain ⟨hfirst, hbefore⟩ := List.forall_mem_cons.mp hbefore
        exact .inr ⟨hends.mp hfirst, before, after, rfl, hbefore⟩
  · rintro (rfl | ⟨hfirst, before, after, rfl, hbefore⟩)
    · exact ⟨[], lines, rfl, by simp⟩
    · exact ⟨first :: before, after, rfl, List.forall_mem_cons.mpr ⟨hends.mpr hfirst, hbefore⟩⟩

/-- The service is stopped exactly if one of the lines that are handled asks for it.  As such a line
ends the session, it is the last of them. -/
theorem stopped_handle_iff {lines : List (List UInt8)} :
    (handle lines).stopped = true ↔ ∃ line, ComesTo lines line ∧ AsksToStop line := by
  induction lines with
  | nil =>
      constructor
      · intro h
        cases h
      · rintro ⟨line, ⟨before, after, hlines, -⟩, -⟩
        simp at hlines
  | cons first lines ih =>
      simp only [comesTo_cons_iff, asksToStop_iff] at ih ⊢
      rw [handle]
      cases hreact : react first with
      | ignore => simp [hreact, ih, Reaction.ends, or_and_right, exists_or]
      | hangUp => simp [hreact, Transcript.empty, Reaction.ends]
      | answer reply =>
          simp [hreact, ih, Transcript.prepend, Reaction.ends, or_and_right, exists_or]
      | stop reply => simp [hreact, or_and_right, exists_or]

/-- There are as many newlines in the lines of printed values as there are values. -/
theorem count_newline_flatMap_replyLine
    {replies : List Value} (h : ∀ reply ∈ replies, Printable reply) :
    (replies.flatMap replyLine).count newline = replies.length := by
  induction replies with
  | nil => rfl
  | cons reply replies ih =>
      have hreply : (replyLine reply).count newline = 1 := by
        rw [replyLine, List.count_append,
          List.count_eq_zero_of_not_mem (h reply (.head _)).newline_notMem]
        rfl
      rw [List.flatMap_cons, List.count_append, hreply, ih fun r hr => h r (.tail _ hr),
        List.length_cons, Nat.add_comm]

/-- An output has one line for each reply, with a text in it that is read as the reply. -/
def WrittenAs (replies : List Value) (output : List UInt8) : Prop :=
  ∃ texts : List String,
    output = texts.flatMap (fun text => text.toUTF8.toList ++ [newline]) ∧
    List.Forall₂ (fun text reply =>
      newline ∉ text.toUTF8.toList ∧ Json.parse text = some reply) texts replies

theorem writtenAs_flatMap_replyLine
    {replies : List Value} (h : ∀ reply ∈ replies, Printable reply) :
    WrittenAs replies (replies.flatMap replyLine) := by
  refine ⟨replies.map Value.compact, by rw [List.flatMap_map]; rfl, ?_⟩
  rw [List.forall₂_map_left_iff, List.forall₂_same]
  intro reply hreply
  exact ⟨(h reply hreply).newline_notMem, (h reply hreply).parse_compact⟩

theorem replies_session_append
    {bytes : List UInt8} (hends : EndsLine bytes)
    (h : ∀ lines, CutInto bytes lines → ∀ line ∈ lines, ∀ answer, ¬ Handles line answer true)
    (more : List UInt8) :
    (session (bytes ++ more)).replies = (session bytes).replies ++ (session more).replies := by
  rw [session, splitLines_append hends]
  refine replies_handle_append (fun line hline => ?_) (splitLines more)
  have hnot := h _ (cutInto_splitLines bytes) line hline (react line).reply?
  rw [handles_iff] at hnot
  simpa using hnot

/-- The bytes of a connection are cut into lines in one way, the lines are served in one way, and
each line is handled in one way that depends on the line alone.  The service is stopped exactly if
the session comes to a line that asks for it.  The output has one line for each reply, and what
follows a complete line that does not end the session adds to the output. -/
theorem session_serves_lines (bytes : List UInt8) :
    (∃ lines, (∀ lines', CutInto bytes lines' ↔ lines' = lines) ∧
      (∀ replies, Serves lines replies ↔ replies = (session bytes).replies) ∧
      ((session bytes).stopped = true ↔ ∃ line, ComesTo lines line ∧ AsksToStop line)) ∧
    (∀ line, ∃ answer ends, ∀ answer' ends',
      Handles line answer' ends' ↔ answer' = answer ∧ ends' = ends) ∧
    WrittenAs (session bytes).replies (session bytes).output ∧
    (session bytes).output.count newline = (session bytes).replies.length ∧
    (∀ more, EndsLine bytes →
      (∀ lines, CutInto bytes lines → ∀ line ∈ lines, ∀ answer, ¬ Handles line answer true) →
      (session (bytes ++ more)).output = (session bytes).output ++ (session more).output) := by
  have hprintable : ∀ reply ∈ (session bytes).replies, Printable reply :=
    (serves_iff.mpr rfl : Serves (splitLines bytes) (session bytes).replies).printable
  refine ⟨⟨splitLines bytes, fun _ => cutInto_iff, fun _ => serves_iff, stopped_handle_iff⟩, ?_,
    writtenAs_flatMap_replyLine hprintable, count_newline_flatMap_replyLine hprintable, ?_⟩
  · intro line
    exact ⟨(react line).reply?, (react line).ends, fun _ _ => handles_iff⟩
  · intro more hends h
    rw [Transcript.output, replies_session_append hends h, List.flatMap_append]
    rfl

/-- A line with a command of which the name is two lines long. -/
def twoLineCommand : List UInt8 :=
  "\x7b\"command\":\"a\\nb\"\x7d\n".toUTF8.toList

/-- The failure that tells the name is one line, and the session goes on after it. -/
theorem session_serves_lines_twoLineCommand :
    EndsLine twoLineCommand ∧
    (∀ lines, CutInto twoLineCommand lines → ∀ line ∈ lines, ∀ answer,
      ¬ Handles line answer true) ∧
    (∀ more, (session (twoLineCommand ++ more)).output =
      (session twoLineCommand).output ++ (session more).output) ∧
    (session twoLineCommand).output.count newline = 1 := by
  have hlast : twoLineCommand.getLast? = some newline := by decide +kernel
  have hends : EndsLine twoLineCommand := by
    intro byte hbyte
    rw [hlast] at hbyte
    exact (Option.some.inj hbyte).symm
  have hreact : ∀ line ∈ splitLines twoLineCommand, (react line).ends = false := by
    decide +kernel
  have hnot : ∀ lines, CutInto twoLineCommand lines → ∀ line ∈ lines, ∀ answer,
      ¬ Handles line answer true := by
    intro lines hcut line hline answer hhandles
    rw [cutInto_iff.mp hcut] at hline
    exact absurd (handles_iff.mp hhandles).2 (by simp [hreact line hline])
  have hreplies : (session twoLineCommand).replies.length = 1 := by decide +kernel
  obtain ⟨-, -, -, hcount, happend⟩ := session_serves_lines twoLineCommand
  exact ⟨hends, hnot, fun more => happend more hends hnot, hcount.trans hreplies⟩

end StatementTable.Service
