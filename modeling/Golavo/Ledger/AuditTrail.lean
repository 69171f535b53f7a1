import Golavo.Ledger.SealIdentity
import Golavo.Ledger.Store

/-! # The audit trail after kills

`_append_audit_event` compares whole lines and then appends one, in one write that may be killed after
any part of it. What a kill leaves is a torn tail, and the next append goes on in it. -/

namespace Golavo.Ledger

open Golavo.Lib (Json Directory splitLines joinLines isBreak CompleteLines)

/-! ## Appends and kills -/

/-- A line of the log, without its line feed. -/
structure AuditLine where
  body : List Char
  unbroken : ∀ c ∈ body, isBreak c = false

/-- A line as it is written. -/
def AuditLine.text (line : AuditLine) : List Char := line.body ++ ['\n']

/-- An append to the log: it finishes, or is killed after writing so many characters. -/
inductive Append where
  | finished (line : AuditLine)
  | killed (line : AuditLine) (written : Nat)

/-- What an append leaves of a log. -/
def Append.act (log : List Char) : Append → List Char
  | .finished line => appendAuditLine log line.text
  | .killed line written =>
      if (splitLines log).contains line.text then log else log ++ line.text.take written

/-- The log a sequence of appends leaves. -/
def trail (appends : List Append) : List Char := appends.foldl Append.act []

/-- The lines of a log that are complete. -/
def completeLines (log : List Char) : List (List Char) :=
  (splitLines log).filter (·.getLast? = some '\n')

/-- The line `_append_audit_event` writes for an artifact. -/
def auditLine (artifact : Json) : Option (List Char) :=
  ((auditEvent artifact).bind canonicalBytes).map (· ++ ['\n'])

/-- Whether a log has the line of an artifact. -/
def Logged (artifact : Json) (log : List Char) : Prop :=
  ∃ line, auditLine artifact = some line ∧ line ∈ splitLines log

/-- Whether a log has the line of an artifact exactly once, and that line parses by itself. -/
def LoggedOnce (artifact : Json) (log : List Char) : Prop :=
  ∃ line event, auditLine artifact = some line ∧ (splitLines log).count line = 1 ∧
    Json.loads line = some event ∧ event.get "artifact_id" = artifact.get "artifact_id"

/-! ## Framed logs -/

/-- A log made of lines and a tail. -/
structure Framed (log : List Char) (bodies : List (List Char)) (tail : List Char) : Prop where
  text : log = joinLines bodies ++ tail
  bodies : ∀ body ∈ bodies, ∀ c ∈ body, isBreak c = false
  tail : ∀ c ∈ tail, isBreak c = false

variable {log : List Char} {bodies : List (List Char)} {tail : List Char}

theorem Framed.splitLines (h : Framed log bodies tail) :
    splitLines log = bodies.map (· ++ ['\n']) ++ if tail = [] then [] else [tail] := by
  rw [h.text]
  exact Lib.splitLines_joinLines_append h.bodies h.tail

/-- What follows the tail of a log, up to a line feed, ends its last line. -/
theorem Framed.append_line (h : Framed log bodies tail) (line : AuditLine) :
    Framed (log ++ line.text) (bodies ++ [tail ++ line.body]) [] := by
  constructor
  · rw [Lib.joinLines_append_singleton, h.text, AuditLine.text]
    simp only [List.append_assoc, List.append_nil]
  · intro body hbody
    rcases List.mem_append.mp hbody with hold | hnew
    · exact h.bodies body hold
    · rw [List.mem_singleton.mp hnew]
      intro c hc
      rcases List.mem_append.mp hc with htail | hline
      · exact h.tail c htail
      · exact line.unbroken c hline
  · exact fun c hc => absurd hc List.not_mem_nil

/-- A part of a line lengthens the tail. -/
theorem Framed.append_part (h : Framed log bodies tail) (line : AuditLine) (written : Nat)
    (hpart : written ≤ line.body.length) :
    Framed (log ++ line.text.take written) bodies (tail ++ line.body.take written) := by
  have htake : line.text.take written = line.body.take written := by
    rw [AuditLine.text, List.take_append_of_le_length hpart]
  refine ⟨?_, h.bodies, fun c hc => ?_⟩
  · rw [htake, h.text, List.append_assoc]
  · rcases List.mem_append.mp hc with hold | hnew
    · exact h.tail c hold
    · exact line.unbroken c (List.mem_of_mem_take hnew)

/-- **Every append leaves lines and a tail**, and keeps the lines there were. -/
theorem Framed.act (h : Framed log bodies tail) (a : Append) :
    ∃ more tail', Framed (a.act log) (bodies ++ more) tail' := by
  cases a with
  | finished line =>
      simp only [Append.act, appendAuditLine]
      split_ifs
      · exact ⟨[], tail, by rwa [List.append_nil]⟩
      · exact ⟨_, _, h.append_line line⟩
  | killed line written =>
      simp only [Append.act]
      split_ifs
      · exact ⟨[], tail, by rwa [List.append_nil]⟩
      · by_cases hpart : written ≤ line.body.length
        · exact ⟨[], _, by rw [List.append_nil]; exact h.append_part line written hpart⟩
        · have hall : line.text.take written = line.text := by
            refine List.take_of_length_le ?_
            rw [AuditLine.text, List.length_append, List.length_singleton]
            omega
          rw [hall]
          exact ⟨_, _, h.append_line line⟩

theorem framed_trail (appends : List Append) : ∃ bodies tail, Framed (trail appends) bodies tail := by
  suffices ∀ log bodies tail, Framed log bodies tail →
      ∃ bodies tail, Framed (appends.foldl Append.act log) bodies tail from
    this [] [] [] ⟨rfl, fun _ h => absurd h List.not_mem_nil, fun _ h => absurd h List.not_mem_nil⟩
  induction appends with
  | nil => exact fun log bodies tail h => ⟨bodies, tail, h⟩
  | cons a rest ih =>
      intro log bodies tail h
      obtain ⟨more, tail', hnext⟩ := h.act a
      exact ih _ _ _ hnext

/-- The complete lines of a log are its lines without the tail. -/
theorem Framed.completeLines (h : Framed log bodies tail) :
    completeLines log = bodies.map (· ++ ['\n']) := by
  rw [Ledger.completeLines, h.splitLines, List.filter_append, List.filter_eq_self.mpr]
  · have htail : (if tail = [] then [] else [tail]).filter
        (fun line => decide (line.getLast? = some '\n')) = [] := by
      refine List.filter_eq_nil_iff.mpr fun line hline => ?_
      split_ifs at hline with hnil
      · exact absurd hline List.not_mem_nil
      · rw [List.mem_singleton.mp hline, decide_eq_true_eq]
        intro hlast
        have := h.tail _ (List.mem_of_getLast? hlast)
        exact absurd this (by decide)
    rw [htail, List.append_nil]
  · intro line hline
    obtain ⟨body, -, rfl⟩ := List.mem_map.mp hline
    simp

/-- A log ends with a complete line exactly when it has no tail. -/
theorem Framed.completeLines_iff (h : Framed log bodies tail) : CompleteLines log ↔ tail = [] := by
  constructor
  · intro hcomplete
    by_contra hne
    obtain ⟨c, hlast⟩ : ∃ c, tail.getLast? = some c := ⟨_, List.getLast?_eq_some_getLast hne⟩
    have hc := h.tail c (List.mem_of_getLast? hlast)
    have hlog : log.getLast? = some c := by
      rw [h.text, List.getLast?_append, hlast]
      rfl
    rcases hcomplete with rfl | hfeed
    · simp at hlog
    · rw [hlog] at hfeed
      rw [Option.some.inj hfeed] at hc
      exact absurd hc (by decide)
  · rintro rfl
    rw [h.text, List.append_nil]
    rcases List.eq_nil_or_concat bodies with rfl | ⟨init, body, rfl⟩
    · exact .inl rfl
    · rw [List.concat_eq_append, Lib.joinLines_append_singleton]
      exact Lib.completeLines_append _ _

/-! ## One append -/

/-- **An append keeps the complete lines**, in their places. -/
theorem completeLines_act {log : List Char} (h : ∃ bodies tail, Framed log bodies tail)
    (a : Append) : completeLines log <+: completeLines (a.act log) := by
  obtain ⟨bodies, tail, h⟩ := h
  obtain ⟨more, tail', hnext⟩ := h.act a
  rw [h.completeLines, hnext.completeLines, List.map_append]
  exact List.prefix_append _ _

/-- **A finished append leaves its line once** exactly when it was there once, or was not there and
the log was not torn. -/
theorem count_appendAuditLine {log : List Char} (h : ∃ bodies tail, Framed log bodies tail)
    (line : AuditLine) :
    (splitLines (appendAuditLine log line.text)).count line.text = 1 ↔
      (splitLines log).count line.text = 1 ∨
        (line.text ∉ splitLines log ∧ CompleteLines log) := by
  obtain ⟨bodies, tail, h⟩ := h
  by_cases hmem : line.text ∈ splitLines log
  · rw [appendAuditLine, if_pos hmem]
    simp only [hmem, not_true_eq_false, false_and, or_false]
  · have hzero : (splitLines log).count line.text = 0 := List.count_eq_zero.mpr hmem
    rw [appendAuditLine, if_neg hmem, hzero, h.completeLines_iff]
    have hlines := (h.append_line line).splitLines
    rw [if_pos rfl, List.append_nil, List.map_append] at hlines
    have hbodies : (bodies.map (· ++ ['\n'])).count line.text = 0 := by
      refine List.count_eq_zero.mpr fun hin => hmem ?_
      rw [h.splitLines]
      exact List.mem_append_left _ hin
    rw [hlines, List.count_append, hbodies, List.map_singleton, List.count_singleton, Nat.zero_add]
    constructor
    · intro hone
      refine .inr ⟨hmem, ?_⟩
      by_contra htorn
      -- the line has become the end of a longer one
      have hne : ((tail ++ line.body) ++ ['\n'] == line.text) = false := by
        rw [beq_eq_false_iff_ne]
        intro heq
        have hlength := congrArg List.length heq
        simp only [AuditLine.text, List.length_append, List.length_singleton] at hlength
        exact htorn (List.length_eq_zero_iff.mp (by omega))
      rw [hne] at hone
      simp at hone
    · rintro (hfalse | ⟨-, hnil⟩)
      · exact absurd hfalse (by decide)
      · rw [hnil, List.nil_append]
        simp [AuditLine.text]

/-! ## Writing an artifact -/

/-- The event of an artifact, written, is one line, and reads back. -/
theorem auditLine_of_event {artifact : Json} (hwf : artifact.WF) {text : List Char}
    (h : (auditEvent artifact).bind canonicalBytes = some text) :
    ∃ (line : AuditLine) (event : Json), line.text = text ++ ['\n'] ∧
      auditLine artifact = some line.text ∧ Json.loads line.text = some event ∧
      event.get "artifact_id" = artifact.get "artifact_id" := by
  obtain ⟨event, hevent, htext⟩ := Option.bind_eq_some_iff.mp h
  have hline : auditLine artifact = some (text ++ ['\n']) := by rw [auditLine, h, Option.map_some]
  have hbreaks := isBreak_of_canonicalBytes htext
  obtain ⟨c, hc, rfl⟩ := Option.map_eq_some_iff.mp htext
  unfold auditEvent at hevent
  simp only [Option.bind_eq_bind, Option.bind_eq_some_iff] at hevent
  obtain ⟨id, hid, provenance, hprovenance, created, hcreated, digest, hdigest, status, hstatus,
    hmk⟩ := hevent
  obtain rfl := Option.some.inj hmk
  have hsupersedes : ((artifact.get "supersedes").getD .null).WF := by
    cases hget : artifact.get "supersedes" with
    | none => exact Json.wf_null
    | some value => exact Json.wf_get hwf hget
  have hprovenanceWF := Json.wf_get hwf hprovenance
  refine ⟨⟨Json.dumps c, hbreaks⟩, c, rfl, hline, loads_canonicalBytes ?_ hc, ?_⟩
  · refine Json.wf_mk fun field hfield => ?_
    simp only [List.mem_cons, List.not_mem_nil, or_false] at hfield
    rcases hfield with rfl | rfl | rfl | rfl | rfl
    · exact Json.wf_get hwf hid
    · exact Json.wf_get hprovenanceWF hcreated
    · exact Json.wf_get hprovenanceWF hdigest
    · exact Json.wf_get hwf hstatus
    · exact hsupersedes
  · rw [get_canonical hc (by decide), hid]
    simp [Json.get_mk, Lib.Fields.getField]

/-- The line of an artifact, once in a log, as a line of the log. -/
theorem loggedOnce_iff {artifact : Json} {line : AuditLine} {event : Json} {log : List Char}
    (hline : auditLine artifact = some line.text) (hparse : Json.loads line.text = some event)
    (hid : event.get "artifact_id" = artifact.get "artifact_id") :
    LoggedOnce artifact log ↔ (splitLines log).count line.text = 1 := by
  constructor
  · rintro ⟨other, -, hother, hcount, -⟩
    obtain rfl := Option.some.inj (hline.symm.trans hother)
    exact hcount
  · exact fun hcount => ⟨_, event, hline, hcount, hparse, hid⟩

theorem logged_iff {artifact : Json} {line : AuditLine} {log : List Char}
    (hline : auditLine artifact = some line.text) :
    Logged artifact log ↔ line.text ∈ splitLines log := by
  constructor
  · rintro ⟨other, hother, hmem⟩
    obtain rfl := Option.some.inj (hline.symm.trans hother)
    exact hmem
  · exact fun hmem => ⟨_, hline, hmem⟩

/-- **The audit trail is complete unless it is torn**: a successful write keeps every complete line,
and leaves the artifact's line once exactly when it was there once already, or was not there and the
log was empty or ended with a line feed. -/
theorem audit_complete_iff (rt : Runtime) (artifacts : Directory (List Char))
    (appends : List Append) (artifact : { j : Json // j.WF }) :
    match writeArtifact rt artifact.1 ⟨artifacts, trail appends⟩ with
    | .error _ => True
    | .ok (_, written) =>
        completeLines (trail appends) <+: completeLines written.audit ∧
          (LoggedOnce artifact.1 written.audit ↔
            LoggedOnce artifact.1 (trail appends) ∨
              (¬ Logged artifact.1 (trail appends) ∧ CompleteLines (trail appends))) := by
  split
  · trivial
  · next stem written hwrite =>
      obtain ⟨-, -, bytes, text, -, hevent, -, rfl⟩ := writeArtifact_ok hwrite
      obtain ⟨line, event, htext, hline, hparse, hid⟩ := auditLine_of_event artifact.2 hevent
      have hframed := framed_trail appends
      rw [← htext]
      refine ⟨completeLines_act hframed (.finished line), ?_⟩
      rw [loggedOnce_iff hline hparse hid, loggedOnce_iff hline hparse hid, logged_iff hline]
      exact count_appendAuditLine hframed line

/-! ## Logs that are not torn -/

/-- An append that is not killed within its line. -/
def Append.Untorn : Append → Prop
  | .finished _ => True
  | .killed line written => written = 0 ∨ line.text.length ≤ written

/-- **Where no append is killed within its line**, the log stays complete and has no line twice. -/
theorem nodup_trail {appends : List Append} (h : ∀ a ∈ appends, a.Untorn) :
    CompleteLines (trail appends) ∧ (splitLines (trail appends)).Nodup := by
  suffices ∀ log, CompleteLines log ∧ (splitLines log).Nodup →
      CompleteLines (appends.foldl Append.act log) ∧
        (splitLines (appends.foldl Append.act log)).Nodup from
    this [] ⟨.inl rfl, by simp [splitLines, Lib.splitLinesFrom]⟩
  induction appends with
  | nil => exact fun _ hlog => hlog
  | cons a rest ih =>
      rintro log ⟨hcomplete, hnodup⟩
      refine ih (fun b hb => h b (List.mem_cons_of_mem _ hb)) _ ?_
      have hfinished : ∀ line : AuditLine, CompleteLines (appendAuditLine log line.text) ∧
          (splitLines (appendAuditLine log line.text)).Nodup := by
        intro line
        refine ⟨completeLines_appendAuditLine hcomplete line.body, ?_⟩
        rw [appendAuditLine]
        split_ifs with hmem
        · exact hnodup
        · rw [AuditLine.text, Lib.splitLines_append_line hcomplete line.unbroken]
          exact List.nodup_append.mpr ⟨hnodup, List.nodup_singleton _, fun x hx y hy => by
            rw [List.mem_singleton.mp hy]
            rintro rfl
            exact hmem hx⟩
      have ha := h a List.mem_cons_self
      cases a with
      | finished line => exact hfinished line
      | killed line written =>
          rcases ha with rfl | hall
          · simp only [Append.act, List.take_zero, List.append_nil, ite_self]
            exact ⟨hcomplete, hnodup⟩
          · have hsame : Append.act log (.killed line written) = appendAuditLine log line.text := by
              rw [Append.act, appendAuditLine, List.take_of_length_le hall]
              by_cases hin : line.text ∈ splitLines log
              · rw [if_pos hin, if_pos (List.contains_iff_mem.mpr hin)]
              · rw [if_neg hin, if_neg (mt List.contains_iff_mem.mp hin)]
            rw [hsame]
            exact hfinished line

/-- There every successful write leaves the artifact's line once. -/
theorem loggedOnce_of_untorn {rt : Runtime} {artifacts : Directory (List Char)}
    {appends : List Append} (h : ∀ a ∈ appends, a.Untorn) {artifact : Json} (hwf : artifact.WF)
    {stem : String} {written : Store}
    (hwrite : writeArtifact rt artifact ⟨artifacts, trail appends⟩ = .ok (stem, written)) :
    LoggedOnce artifact written.audit := by
  obtain ⟨hcomplete, hnodup⟩ := nodup_trail h
  obtain ⟨-, -, bytes, text, -, hevent, -, rfl⟩ := writeArtifact_ok hwrite
  obtain ⟨line, event, htext, hline, hparse, hid⟩ := auditLine_of_event hwf hevent
  rw [← htext, loggedOnce_iff hline hparse hid]
  refine (count_appendAuditLine (framed_trail appends) line).mpr ?_
  by_cases hmem : line.text ∈ splitLines (trail appends)
  · exact .inl (List.count_eq_one_of_mem hnodup hmem)
  · exact .inr ⟨hmem, hcomplete⟩

/-! ## A torn line -/

/-- **After a kill, a seal's line is lost in a torn one**: the write of a friendly's seal succeeds and
leaves no line of its own. -/
theorem audit_torn : ¬ ∀ (rt : Runtime) (artifacts : Directory (List Char))
    (appends : List Append) (artifact : { j : Json // j.WF }) (stem : String) (written : Store),
    writeArtifact rt artifact.1 ⟨artifacts, trail appends⟩ = .ok (stem, written) →
      LoggedOnce artifact.1 written.audit := by
  intro hall
  obtain ⟨a, id, bytes, c, store, ha, hvalid, hc, hbytes, hback, -, -, hwrite, -, -, -⟩ :=
    seal_friendly
  obtain ⟨plan, hash, hplan, hfinal⟩ := buildForecastArtifact_ok ha
  have hwf : a.WF := wf_finalise (wf_sealRecord hplan _ _) hfinal
  obtain ⟨-, hid, bytes', text, hbytes', hevent, -, -⟩ := writeArtifact_ok hwrite
  obtain ⟨line, event, htext, hline, hparse, hparsed⟩ := auditLine_of_event hwf hevent
  -- the kill after the first character
  let torn : List Append := [.killed line 1]
  have hwritten := @writeArtifact_of_free .standard a ⟨.empty, trail torn⟩ _ _ _ hvalid hid hbytes'
    hevent fun existing h => by simp at h
  have honce := hall .standard .empty torn ⟨a, hwf⟩ _ _ hwritten
  rw [← htext, loggedOnce_iff hline hparse hparsed,
    count_appendAuditLine (framed_trail torn) line] at honce
  have hpos : 1 ≤ line.body.length := by
    by_contra hshort
    have hbody : line.body = [] := List.length_eq_zero_iff.mp (by omega)
    have hnil : line.text = ['\n'] := by
      rw [AuditLine.text, hbody]
      rfl
    rw [hnil] at hparse
    exact absurd hparse (by simp [show Json.loads ['\n'] = none by decide])
  have hempty : Framed [] [] [] :=
    ⟨rfl, fun _ h => absurd h List.not_mem_nil, fun _ h => absurd h List.not_mem_nil⟩
  have htorn : trail torn = line.text.take 1 := by
    simp [torn, trail, Append.act, splitLines, Lib.splitLinesFrom]
  have hframed := hempty.append_part line 1 hpos
  rw [List.nil_append, List.nil_append] at hframed
  have hne : line.body.take 1 ≠ [] := by
    intro hnil
    have := congrArg List.length hnil
    rw [List.length_take, List.length_nil] at this
    omega
  rw [htorn, hframed.completeLines_iff, hframed.splitLines, if_neg hne] at honce
  rcases honce with hcount | ⟨-, hnil⟩
  · have hmem : line.text ∈ [line.body.take 1] := List.one_le_count_iff.mp hcount.ge
    have hlength := congrArg List.length (List.mem_singleton.mp hmem)
    rw [AuditLine.text, List.length_append, List.length_take, List.length_singleton] at hlength
    omega
  · exact hne hnil

end Golavo.Ledger
