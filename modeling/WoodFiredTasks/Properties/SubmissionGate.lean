import WoodFiredTasks.Lib.Text
import WoodFiredTasks.Mcp.TaskTools

set_option autoImplicit false

/-! # One gate, three texts

A score submission is judged on the text of its task, and each of the three ways to submit one
builds that text by its own rule. `create_task` joins the title, the description and the acceptance
criteria that are given. `update_task` does the same with the new texts, but a text that the call
clears falls back on the stored one. `rescore` joins the title and the description, and never looks
at the acceptance criteria. A span may be the whole of a text, so the three agree on all submissions
only where the texts are the same. -/

namespace WoodFiredTasks

open TaskService TaskTools

/-! ## The text of a task -/

structure TaskText where
  title : String
  description : Option String
  acceptanceCriteria : Option String
  deriving DecidableEq, Repr

def Task.text (t : Task) : TaskText := ⟨t.title, t.description, t.acceptanceCriteria⟩

def CreateTaskInput.text (input : CreateTaskInput) : TaskText :=
  ⟨input.title, input.description, input.acceptanceCriteria⟩

namespace TaskText

/-- The parts that are there. -/
def parts (t : TaskText) : List String :=
  [some t.title, t.description, t.acceptanceCriteria].filterMap id

/-- The text as one: each part on lines of its own. -/
def full (t : TaskText) : String := "\n".intercalate t.parts

/-- The text as `create_task` stores it. -/
def stored (t : TaskText) : TaskText := { t with description := orNull t.description }

/-- The length of an optional part with the line break in front of it. -/
def partSize (part : Option String) : Nat := part.elim 0 fun s => s.toList.length + 1

theorem full_length (t : TaskText) : t.full.toList.length =
    t.title.toList.length + partSize t.description + partSize t.acceptanceCriteria := by
  obtain ⟨title, description, acceptanceCriteria⟩ := t
  cases description <;> cases acceptanceCriteria <;> simp [full, parts, partSize]
  omega

theorem partSize_eq_zero {part : Option String} : partSize part = 0 ↔ part = none := by
  cases part <;> simp [partSize]

theorem partSize_orNull_le (part : Option String) : partSize (orNull part) ≤ partSize part := by
  unfold orNull
  split <;> simp [partSize]

/-- A span on one line lies in one of the parts. -/
theorem includes_full {t : TaskText} {span : String} (hline : '\n' ∉ span.toList) :
    includes t.full span = true ↔ ∃ part ∈ t.parts, includes part span = true := by
  have hsep : "\n".toList = ['\n'] := rfl
  have hne : t.parts.map String.toList ≠ [] := by simp [parts]
  simp only [includes, decide_eq_true_eq, full, String.toList_intercalate, hsep]
  rw [infix_intercalate_iff hline hne]
  simp

theorem includes_empty {text span : String} (h : includes "" span = true) :
    includes text span = true := by
  simp only [includes, decide_eq_true_eq] at h ⊢
  rw [List.infix_nil.1 h]
  exact List.nil_infix

/-- Texts with the same parts but for empty ones have the same spans on one line. -/
theorem includes_of_parts {t t' : TaskText} {span : String} (hline : '\n' ∉ span.toList)
    (hparts : ∀ part ∈ t.parts, part ∈ t'.parts ∨ part = "")
    (h : includes t.full span = true) : includes t'.full span = true := by
  obtain ⟨part, hpart, hspan⟩ := (includes_full hline).1 h
  refine (includes_full hline).2 ?_
  rcases hparts part hpart with hmem | rfl
  · exact ⟨part, hmem, hspan⟩
  · exact ⟨t'.title, by simp [parts], includes_empty hspan⟩

theorem mem_parts_stored {t : TaskText} {part : String} (h : part ∈ t.parts) :
    part ∈ t.stored.parts ∨ part = "" := by
  by_cases hempty : part = ""
  · exact .inr hempty
  · left
    obtain ⟨title, description, acceptanceCriteria⟩ := t
    cases description with
    | none => exact h
    | some d =>
      simp only [parts, stored, List.mem_filterMap] at h ⊢
      by_cases hd : d = ""
      · subst hd
        simp_all [orNull]
      · rw [orNull] <;> simp_all

end TaskText

theorem createSourceText_eq (input : CreateTaskInput) :
    createSourceText input = input.text.full := rfl

/-- The text that `update_task` judges: what is cleared is still there. -/
def updateSource (updates : UpdateTaskInput) (existing : Task) : TaskText where
  title := updates.title.getD existing.title
  description := updates.description.join.or existing.description
  acceptanceCriteria := updates.acceptanceCriteria.join.or existing.acceptanceCriteria

theorem updateSourceText_eq (updates : UpdateTaskInput) (existing : Task) :
    updateSourceText updates existing = (updateSource updates existing).full := rfl

theorem sourceTextOf_eq (task : Task) :
    sourceTextOf task = (TaskText.mk task.title (some (task.description.getD "")) none).full := rfl

/-! ## The verdict on a text -/

/-- The components if the submission passes on the text. -/
def verdict (env : Env) (charter : Option ValueCharter) (s : ScoreSubmission) (text : String) :
    Option WsjfComponents :=
  (validateScoreSubmission env s { charter, sourceText := some text }).toOption

/-- The span is a substring of the task's text or of the charter. -/
def Verbatim (text : TaskText) (charter : Option ValueCharter) (span : String) : Prop :=
  includes text.full span = true ∨ includes (charterText charter) span = true

/-- No theme can be named. -/
def Themeless (charter : Option ValueCharter) : Prop := ∃ c, charter = some c ∧ c.valueThemes = []

section Verdict

variable {env : Env} {charter : Option ValueCharter} {s : ScoreSubmission} {text : String}
  {computed : WsjfComponents}

theorem verdict_eq_some (h : verdict env charter s text = some computed) :
    submissionErrors s = [] ∧
      gateErrors env s { charter, sourceText := some text } = [] := by
  unfold verdict validateScoreSubmission at h
  split at h
  · cases h
  · rename_i hsubmission
    split at h
    · cases h
    · rename_i hgate
      exact ⟨not_not.1 hsubmission, not_not.1 hgate⟩

/-- What passes has its spans in the text and the charter, as they are joined. -/
theorem spans_of_verdict (h : verdict env charter s text = some computed) {key span : String}
    (hspan : (key, span) ∈ s.classification.evidence.spans) :
    includes (text ++ "\n" ++ charterText charter) span = true := by
  obtain ⟨-, hgate⟩ := verdict_eq_some h
  simp only [gateErrors, List.append_eq_nil_iff] at hgate
  have hevidence := hgate.1.1.1.2
  rw [evidenceErrors, List.filterMap_eq_nil_iff] at hevidence
  have hnone := hevidence _ hspan
  by_contra hmissing
  simp only [Option.getD_some] at hnone
  rw [if_neg hmissing] at hnone
  cases hnone

theorem verbatim_of_includes {t : TaskText} {span : String} (hline : '\n' ∉ span.toList)
    (h : includes (t.full ++ "\n" ++ charterText charter) span = true) :
    Verbatim t charter span := by
  simp only [Verbatim, includes, decide_eq_true_eq, String.toList_append] at h ⊢
  have hsep : "\n".toList = ['\n'] := rfl
  rw [hsep, List.append_assoc, List.singleton_append] at h
  exact infix_of_infix_separator hline h

/-- What is as long as the text, the charter and the break between them is in neither. -/
theorem not_verbatim_all {t t' : TaskText} (h : t'.full.toList.length ≤ t.full.toList.length) :
    ¬ Verbatim t' charter (t.full ++ "\n" ++ charterText charter) := by
  simp only [Verbatim, includes, decide_eq_true_eq, String.toList_append]
  have hsep : "\n".toList = ['\n'] := rfl
  rintro (hspan | hspan)
  all_goals
    have hlength := hspan.length_le
    simp only [hsep, List.length_append, List.length_singleton] at hlength
    omega

theorem verdict_of_themeless (h : Themeless charter) : verdict env charter s text = none := by
  obtain ⟨c, rfl, hthemes⟩ := h
  cases hverdict : verdict env (some c) s text with
  | none => rfl
  | some computed =>
    obtain ⟨-, hgate⟩ := verdict_eq_some hverdict
    simp only [gateErrors, List.append_eq_nil_iff] at hgate
    have htheme := hgate.1.1.1.1
    cases hname : s.classification.themeName with
    | none => simp [themeErrors, hname] at htheme
    | some name => simp [themeErrors, hname, hthemes] at htheme

end Verdict

/-! ## A submission that looks for one span -/

/-- A theme that may be named. -/
def probeTheme (charter : Option ValueCharter) : Option String :=
  charter.bind fun c => c.valueThemes.head?.map (·.name)

/-- The submission whose only question is whether the span is found. -/
def probe (charter : Option ValueCharter) (span : String) : ScoreSubmission where
  classification :=
    { themeName := probeTheme charter
      alignment := .none
      severity := .none
      decay := none
      jobSizeTier := .one
      evidence := ⟨span, span, span, span⟩ }
  features :=
    { deadlineDate := none
      daysUntilDeadline := none
      transitiveDependents := 0
      filesTouched := some 0
      charterVersion := none }

section Probe

variable (env : Env) {charter : Option ValueCharter} {span : String}

theorem themeErrors_probe (h : ¬ Themeless charter) :
    themeErrors (probeTheme charter) charter = [] := by
  cases charter with
  | none => rfl
  | some c =>
    cases hthemes : c.valueThemes with
    | nil => exact absurd ⟨c, rfl, hthemes⟩ h
    | cons theme rest => simp [themeErrors, probeTheme, hthemes]

theorem verdict_probe (text : String) (hcharter : ¬ Themeless charter) (hspan : span ≠ "") :
    (verdict env charter (probe charter span) text).isSome = true ↔
      includes (text ++ "\n" ++ charterText charter) span = true := by
  constructor
  · intro h
    obtain ⟨computed, hcomputed⟩ := Option.isSome_iff_exists.1 h
    have hspan : ("value", span) ∈ (probe charter span).classification.evidence.spans := by
      simp [probe, WsjfEvidence.spans]
    exact spans_of_verdict hcomputed hspan
  · intro h
    have hsubmission : submissionErrors (probe charter span) = [] := by
      simp [submissionErrors, probe, WsjfEvidence.spans, hspan]
    have hgate : gateErrors env (probe charter span) { charter, sourceText := some text } = [] := by
      have htheme := themeErrors_probe hcharter
      simp only [gateErrors, List.append_eq_nil_iff]
      refine ⟨⟨⟨⟨htheme, ?_⟩, ?_⟩, ?_⟩, rfl⟩
      · simp [evidenceErrors, probe, WsjfEvidence.spans, h]
      · simp [bandErrors, jobSizeBand, probe, Fib.toNat]
      · rfl
    rw [verdict, validateScoreSubmission, if_neg (by simp [hsubmission]), if_neg (by simp [hgate])]
    rfl

end Probe

/-! ## The texts are told apart -/

/-- Two texts that pass the same submissions are the same. -/
theorem text_eq_of_verdicts (env : Env) {charter : Option ValueCharter} {a b : String}
    (hcharter : ¬ Themeless charter)
    (h : ∀ s, verdict env charter s a = verdict env charter s b) : a = b := by
  have hne : ∀ text : String, text ++ "\n" ++ charterText charter ≠ "" := by
    intro text hempty
    have hlist := congrArg String.toList hempty
    simp at hlist
  -- the whole source of one text is a span of the other
  have hinfix : ∀ {x y : String}, (∀ s, verdict env charter s x = verdict env charter s y) →
      (x ++ "\n" ++ charterText charter).toList <:+: (y ++ "\n" ++ charterText charter).toList := by
    intro x y hxy
    have hself : includes (x ++ "\n" ++ charterText charter)
        (x ++ "\n" ++ charterText charter) = true := by
      simp [includes]
    have hpass := (verdict_probe env x hcharter (hne x)).2 hself
    rw [hxy] at hpass
    simpa only [includes, decide_eq_true_eq] using (verdict_probe env y hcharter (hne x)).1 hpass
  have hab := hinfix h
  have hba := hinfix fun s => (h s).symm
  have hall := hab.eq_of_length (le_antisymm hab.length_le hba.length_le)
  simp only [String.toList_append, List.append_assoc, List.append_left_inj] at hall
  exact String.toList_injective hall

/-! ## The three surfaces -/

/-- The text of the row after the update. -/
def UpdateTaskInput.textOn (updates : UpdateTaskInput) (existing : Task) : TaskText where
  title := updates.title.getD existing.title
  description := updates.description.getD existing.description
  acceptanceCriteria := updates.acceptanceCriteria.getD existing.acceptanceCriteria

theorem text_apply (updates : UpdateTaskInput) (existing : Task) (current : Option TaskStatus)
    (now : Nat) : ((updatesForRepo existing updates).apply current now existing).text =
      updates.textOn existing := rfl

/-- The components that `rescore` is about to write. -/
def rescoreVerdict (env : Env) (charter : Option ValueCharter) (s : ScoreSubmission) (task : Task) :
    Option WsjfComponents :=
  (assess env task.projectId charter ⟨task.id, s⟩ (some task)).toOption.map (·.components)

theorem rescoreVerdict_eq {env : Env} {charter : Option ValueCharter} {s : ScoreSubmission}
    {task : Task} {prev : WsjfComponents} (hprev : task.wsjf.components? = some prev) :
    rescoreVerdict env charter s task =
      (verdict env charter s (sourceTextOf task)).map (mergeLocked task.wsjf.locked prev) := by
  have hfilter : ((some task).filter fun t => t.projectId == task.projectId) = some task := by simp
  simp only [rescoreVerdict, assess, hfilter, hprev, verdict]
  split <;> rename_i hgate <;> simp [hgate, Except.toOption]

section Surfaces

variable (env : Env) (charter : Option ValueCharter) (existing : Task) (updates : UpdateTaskInput)

/-- The verdict of `create_task` on the text after the update is that of `update_task`, and that of
    `rescore` up to the components that are locked. -/
structure SameGate : Prop where
  updated : ∀ (created : CreateTaskInput) (s : ScoreSubmission),
    created.text = updates.textOn existing →
      verdict env charter s (updateSourceText updates existing) =
        verdict env charter s (createSourceText created)
  rescored : ∀ (created : CreateTaskInput) (s : ScoreSubmission) (after : Task)
    (prev : WsjfComponents),
    created.text = updates.textOn existing → after.text = updates.textOn existing →
      after.wsjf.components? = some prev →
        rescoreVerdict env charter s after =
          (verdict env charter s (createSourceText created)).map (mergeLocked after.wsjf.locked prev)

/-- Accepted spans of a kind are verbatim in the text that is stored after the call, or in the
    charter. -/
structure SpansVerbatim (kind : String → Prop) : Prop where
  created : ∀ (created : CreateTaskInput) (s : ScoreSubmission) (computed : WsjfComponents)
    (key span : String), created.text = updates.textOn existing →
      verdict env charter s (createSourceText created) = some computed →
        (key, span) ∈ s.classification.evidence.spans → kind span →
          Verbatim created.text.stored charter span
  updated : ∀ (s : ScoreSubmission) (computed : WsjfComponents) (key span : String),
    verdict env charter s (updateSourceText updates existing) = some computed →
      (key, span) ∈ s.classification.evidence.spans → kind span →
        Verbatim (updates.textOn existing) charter span
  rescored : ∀ (s : ScoreSubmission) (after : Task) (merged : WsjfComponents) (key span : String),
    after.text = updates.textOn existing → rescoreVerdict env charter s after = some merged →
      (key, span) ∈ s.classification.evidence.spans → kind span →
        Verbatim after.text charter span

/-- The three surfaces build one text: no text that is there is cleared, and after the update the
    text that `rescore` leaves out is not there. -/
structure TextsAgree : Prop where
  description : updates.description = some none → existing.description = none
  acceptanceCriteria : updates.acceptanceCriteria = some none → existing.acceptanceCriteria = none
  rescored :
    ((updates.textOn existing).description.isSome = true ∧
      (updates.textOn existing).acceptanceCriteria = none) ∨
    ((updates.textOn existing).description = none ∧
      (updates.textOn existing).acceptanceCriteria = some "")

end Surfaces

/-! ## When the texts are the same -/

section Cleared

variable {update : Option (Option String)} {stored : Option String}

/-- Unless a part that is there is cleared, the source part is the new one. -/
theorem join_or_eq (h : update = some none → stored = none) :
    update.join.or stored = update.getD stored := by
  rcases update with _ | _ | text
  · rfl
  · simp [h rfl]
  · rfl

theorem partSize_getD_le (update : Option (Option String)) (stored : Option String) :
    TaskText.partSize (update.getD stored) ≤ TaskText.partSize (update.join.or stored) := by
  rcases update with _ | _ | text <;> simp [TaskText.partSize]

theorem kept_of_partSize
    (h : TaskText.partSize (update.join.or stored) = TaskText.partSize (update.getD stored)) :
    update = some none → stored = none := by
  intro hclear
  subst hclear
  exact TaskText.partSize_eq_zero.1 h

end Cleared

section Texts

variable {existing : Task} {updates : UpdateTaskInput}

theorem TextsAgree.updateSource_eq (h : TextsAgree existing updates) :
    updateSource updates existing = updates.textOn existing := by
  simp only [updateSource, UpdateTaskInput.textOn, join_or_eq h.description,
    join_or_eq h.acceptanceCriteria]

theorem TextsAgree.sourceTextOf_eq (h : TextsAgree existing updates) {after : Task}
    (hafter : after.text = updates.textOn existing) :
    sourceTextOf after = (updates.textOn existing).full := by
  have hrescored := h.rescored
  rw [← hafter] at hrescored ⊢
  rcases hrescored with ⟨hdescription, hcriteria⟩ | ⟨hdescription, hcriteria⟩
  · obtain ⟨d, hd⟩ := Option.isSome_iff_exists.1 hdescription
    simp only [Task.text] at hd hcriteria
    simp [sourceTextOf, Task.text, TaskText.full, TaskText.parts, hd, hcriteria]
  · simp only [Task.text] at hdescription hcriteria
    simp [sourceTextOf, Task.text, TaskText.full, TaskText.parts, hdescription, hcriteria]

/-- Where the source texts are the same, no text is cleared and none is left out: their lengths
    would tell. -/
theorem textsAgree_of_eq (after : Task) (hafter : after.text = updates.textOn existing)
    (hupdated : updateSourceText updates existing = (updates.textOn existing).full)
    (hrescored : sourceTextOf after = (updates.textOn existing).full) :
    TextsAgree existing updates := by
  rw [updateSourceText_eq] at hupdated
  have hlength := congrArg (fun text => text.toList.length) hupdated
  simp only [TaskText.full_length, updateSource, UpdateTaskInput.textOn] at hlength
  have hdescription := partSize_getD_le updates.description existing.description
  have hcriteria := partSize_getD_le updates.acceptanceCriteria existing.acceptanceCriteria
  refine ⟨kept_of_partSize (by omega), kept_of_partSize (by omega), ?_⟩
  rw [← hafter] at hrescored ⊢
  rw [sourceTextOf_eq] at hrescored
  have hleft := congrArg (fun text => text.toList.length) hrescored
  simp only [TaskText.full_length, Task.text] at hleft ⊢
  cases hd : after.description with
  | some d =>
    left
    simp only [hd, TaskText.partSize, Option.getD_some, Option.elim_some, Option.elim_none] at hleft
    exact ⟨rfl, TaskText.partSize_eq_zero.1 (by simp only [TaskText.partSize]; omega)⟩
  | none =>
    right
    cases hc : after.acceptanceCriteria with
    | none => simp [hd, hc, TaskText.partSize] at hleft
    | some c =>
      simp only [hd, hc, TaskText.partSize, Option.getD_none, Option.elim_some,
        Option.elim_none] at hleft
      have hempty : c.toList = [] := by
        apply List.length_eq_zero_iff.1
        simp at hleft ⊢
        omega
      exact ⟨rfl, congrArg some (String.toList_eq_nil_iff.1 hempty)⟩

end Texts

/-! ## Where the gate is the same -/

section Surfaces

variable {env : Env} {charter : Option ValueCharter} {existing : Task} {updates : UpdateTaskInput}

theorem rescoreVerdict_eq_some {s : ScoreSubmission} {task : Task} {merged : WsjfComponents}
    (h : rescoreVerdict env charter s task = some merged) :
    ∃ prev computed, task.wsjf.components? = some prev ∧
      verdict env charter s (sourceTextOf task) = some computed := by
  cases hprev : task.wsjf.components? with
  | none =>
    have hfilter : ((some task).filter fun t => t.projectId == task.projectId) = some task := by
      simp
    simp only [rescoreVerdict, assess, hfilter, hprev] at h
    cases h
  | some prev =>
    rw [rescoreVerdict_eq hprev, Option.map_eq_some_iff] at h
    obtain ⟨computed, hcomputed, -⟩ := h
    exact ⟨prev, computed, rfl, hcomputed⟩

/-- A creation with the text. -/
def TaskText.input (t : TaskText) : CreateTaskInput where
  title := t.title
  description := t.description
  acceptanceCriteria := t.acceptanceCriteria
  projectId := 1
  createdBy := "agent"

/-- The row with the text, scored and unlocked. -/
def TaskText.scored (t : TaskText) (task : Task) : Task :=
  { task with
    title := t.title
    description := t.description
    acceptanceCriteria := t.acceptanceCriteria
    wsjf :=
      { value := some .one, timeCriticality := some .one, riskOpportunity := some .one,
        jobSize := some .one } }

theorem sameGate_of_texts (hupdated : updateSourceText updates existing =
      (updates.textOn existing).full)
    (hrescored : ∀ after : Task, after.text = updates.textOn existing →
      sourceTextOf after = (updates.textOn existing).full) :
    SameGate env charter existing updates where
  updated := by
    intro created s hcreated
    rw [hupdated, createSourceText_eq, hcreated]
  rescored := by
    intro created s after prev hcreated hafter hprev
    rw [rescoreVerdict_eq hprev, hrescored after hafter, createSourceText_eq, hcreated]

theorem sameGate_of_themeless (h : Themeless charter) : SameGate env charter existing updates where
  updated := by
    intro created s _
    rw [verdict_of_themeless h, verdict_of_themeless h]
  rescored := by
    intro created s after prev _ _ hprev
    rw [rescoreVerdict_eq hprev, verdict_of_themeless h, verdict_of_themeless h]

theorem sameGate_iff : SameGate env charter existing updates ↔
    Themeless charter ∨ TextsAgree existing updates := by
  constructor
  · intro h
    by_cases hthemes : Themeless charter
    · exact .inl hthemes
    · right
      let t := updates.textOn existing
      refine textsAgree_of_eq (t.scored existing) rfl ?_ ?_
      · exact text_eq_of_verdicts env hthemes fun s => h.updated t.input s rfl
      · refine text_eq_of_verdicts env hthemes fun s => ?_
        have hsame := h.rescored t.input s (t.scored existing) ⟨.one, .one, .one, .one⟩ rfl rfl rfl
        rw [rescoreVerdict_eq rfl] at hsame
        -- nothing is locked, so the merge is the identity
        have hmerge : mergeLocked (t.scored existing).wsjf.locked ⟨.one, .one, .one, .one⟩ = id := rfl
        rw [hmerge, Option.map_id] at hsame
        exact hsame
  · rintro (hthemes | htexts)
    · exact sameGate_of_themeless hthemes
    · refine sameGate_of_texts ?_ fun after hafter => htexts.sourceTextOf_eq hafter
      rw [updateSourceText_eq, htexts.updateSource_eq]

theorem spansVerbatim_of_themeless {kind : String → Prop} (h : Themeless charter) :
    SpansVerbatim env charter existing updates kind where
  created := by
    intro created s computed key span _ hpass
    rw [verdict_of_themeless h] at hpass
    cases hpass
  updated := by
    intro s computed key span hpass
    rw [verdict_of_themeless h] at hpass
    cases hpass
  rescored := by
    intro s after merged key span _ hpass
    obtain ⟨prev, computed, -, hcomputed⟩ := rescoreVerdict_eq_some hpass
    rw [verdict_of_themeless h] at hcomputed
    cases hcomputed

/-- A span that runs from the text into the charter passes, and is in neither. -/
theorem spansVerbatim_iff : SpansVerbatim env charter existing updates (fun _ => True) ↔
    Themeless charter := by
  constructor
  · intro h
    by_contra hthemes
    let t := updates.textOn existing
    let span := t.full ++ "\n" ++ charterText charter
    have hne : span ≠ "" := by
      intro hempty
      have hlist := congrArg String.toList hempty
      simp [span] at hlist
    have hself : includes span span = true := by simp [includes]
    obtain ⟨computed, hcomputed⟩ := Option.isSome_iff_exists.1
      ((verdict_probe env t.full hthemes hne).2 hself)
    have hspan := h.created t.input (probe charter span) computed "value" span rfl hcomputed
      (by simp [probe, WsjfEvidence.spans]) trivial
    refine not_verbatim_all (t := t) ?_ hspan
    have hstored := TaskText.partSize_orNull_le t.description
    simp only [TaskText.full_length, TaskText.stored, TaskText.input, CreateTaskInput.text]
    omega
  · exact spansVerbatim_of_themeless

/-- On the same text, a span on one line is found where it should be. -/
theorem TextsAgree.spansVerbatim (h : TextsAgree existing updates) :
    SpansVerbatim env charter existing updates fun span => '\n' ∉ span.toList where
  created := by
    intro created s computed key span _ hpass hspan hline
    rw [createSourceText_eq] at hpass
    rcases verbatim_of_includes hline (spans_of_verdict hpass hspan) with htext | hcharter
    · exact .inl (TaskText.includes_of_parts hline (fun _ => TaskText.mem_parts_stored) htext)
    · exact .inr hcharter
  updated := by
    intro s computed key span hpass hspan hline
    rw [updateSourceText_eq, h.updateSource_eq] at hpass
    exact verbatim_of_includes hline (spans_of_verdict hpass hspan)
  rescored := by
    intro s after merged key span hafter hpass hspan hline
    obtain ⟨prev, computed, -, hcomputed⟩ := rescoreVerdict_eq_some hpass
    rw [h.sourceTextOf_eq hafter] at hcomputed
    rw [hafter]
    exact verbatim_of_includes hline (spans_of_verdict hcomputed hspan)

/-- **Main theorem.** `create_task`, `update_task` and `rescore` judge by one text exactly when no
    text that is there is cleared and the row has no acceptance criteria for `rescore` to leave out.
    A span that crosses from the text into the charter passes on any text, so that the accepted
    spans are all verbatim only where nothing is accepted; those on one line are. -/
theorem submission_gate_same_iff (env : Env) (charter : Option ValueCharter) (existing : Task)
    (updates : UpdateTaskInput) :
    (SameGate env charter existing updates ∧
      SpansVerbatim env charter existing updates (fun _ => True) ↔ Themeless charter) ∧
    (SameGate env charter existing updates ↔
      Themeless charter ∨ TextsAgree existing updates) ∧
    (TextsAgree existing updates →
      SpansVerbatim env charter existing updates fun span => '\n' ∉ span.toList) := by
  refine ⟨⟨fun h => spansVerbatim_iff.1 h.2, fun h => ⟨?_, ?_⟩⟩, sameGate_iff,
    TextsAgree.spansVerbatim⟩
  · exact sameGate_of_themeless h
  · exact spansVerbatim_iff.2 h

end Surfaces

/-! ### A task with acceptance criteria -/

/-- A scored task with a text in every part. -/
def shipTask : Task where
  id := 1
  title := "Ship"
  description := some "old"
  status := .open
  priority := .medium
  projectId := 1
  parentTaskId := none
  estimatedMinutes := none
  assignee := none
  createdBy := "agent"
  dueDate := none
  createdAt := .iso 0
  updatedAt := .iso 0
  version := 1
  claimedAt := none
  completedAt := none
  acceptanceCriteria := some "done"
  verificationEvidence := none
  wsjf :=
    { value := some .one, timeCriticality := some .one, riskOpportunity := some .one,
      jobSize := some .one }
  createdByUserId := none
  assigneeUserId := none
  tags := []

/-- A span of the acceptance criteria passes at creation and not at the rescore of the same text,
    and a span of the description passes in the call that clears it. -/
theorem acceptance_criteria_not_rescored :
    (verdict .undisturbed none (probe none "done") (createSourceText shipTask.text.input)).isSome =
        true ∧
      rescoreVerdict .undisturbed none (probe none "done") shipTask = none ∧
      (verdict .undisturbed none (probe none "old")
        (updateSourceText { description := some none } shipTask)).isSome = true ∧
      ¬ Verbatim ({ description := some none : UpdateTaskInput }.textOn shipTask) none "old" := by
  have hthemes : ¬ Themeless none := by
    rintro ⟨c, hc, -⟩
    cases hc
  have hprev : shipTask.wsjf.components? = some ⟨.one, .one, .one, .one⟩ := rfl
  refine ⟨?_, ?_, ?_, ?_⟩
  · exact (verdict_probe _ _ hthemes (by decide)).2 (by decide +kernel)
  · have hgate : ¬ (verdict .undisturbed none (probe none "done") (sourceTextOf shipTask)).isSome =
        true := fun h => absurd ((verdict_probe _ _ hthemes (by decide)).1 h) (by decide +kernel)
    rw [rescoreVerdict_eq hprev, Option.map_eq_none_iff]
    simpa using hgate
  · exact (verdict_probe _ _ hthemes (by decide)).2 (by decide +kernel)
  · simp only [Verbatim]
    decide +kernel

end WoodFiredTasks
