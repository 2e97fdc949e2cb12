import InstallScript.Host.Console
import InstallScript.Proofs.Machine.Nesting

/-!
Questions on a terminal. Every question that is asked takes a line of the input, so however often an
answer is refused, asking comes to an end. The options that are picked are some that a prompt can be
answered with, so no script that runs on a terminal fails because of them.
-/

namespace InstallScript

open Script

namespace Prompt

/-- The options that are picked by default are options that are offered. -/
theorem of_mem_markedFrom {index : Nat} {items : List String} {i : Nat}
    (h : i ∈ markedFrom index items) :
    index ≤ i ∧ i < index + items.length := by
  induction items generalizing index with
  | nil => cases h
  | cons item rest ih =>
    simp only [markedFrom] at h
    split at h
    · rcases List.mem_cons.mp h with rfl | h
      · simp
      · have := ih h
        grind
    · have := ih h
      grind

theorem nodup_markedFrom (index : Nat) (items : List String) : (markedFrom index items).Nodup := by
  induction items generalizing index with
  | nil => exact List.nodup_nil
  | cons item rest ih =>
    simp only [markedFrom]
    split
    · refine List.nodup_cons.mpr ⟨fun h => ?_, ih (index + 1)⟩
      exact absurd (of_mem_markedFrom h).1 (Nat.not_succ_le_self index)
    · exact ih (index + 1)

end Prompt

namespace Console

/-- The lines of an input, each with its line feed, which the last one may lack. -/
def inputLines : List UInt8 → List (List UInt8)
  | [] => []
  | b :: rest =>
    if b = 10 then [b] :: inputLines rest
    else
      match inputLines rest with
      | [] => [[b]]
      | line :: more => (b :: line) :: more

/-- The first line is what is taken from the input. -/
theorem inputLines_cons (b : UInt8) (rest : List UInt8) :
    inputLines (b :: rest) = (splitLine (b :: rest)).1 :: inputLines (splitLine (b :: rest)).2 := by
  induction rest generalizing b with
  | nil =>
    rw [inputLines, splitLine]
    split <;> rfl
  | cons c rest ih =>
    rw [inputLines, splitLine]
    split
    · rfl
    · rw [ih c]

/-- A dialogue that asks a question until it is answered, as the lines typed before and after it,
    its answer and what is shown. A line that is refused is commented on, and the question is asked
    again. -/
inductive Dialogue {α : Type} (message : String) (understand : String → Except String α) :
    List (List UInt8) → List (List UInt8) → Except String α → List Event → Prop where
  | closed : Dialogue message understand [] [] (.error closedMessage) [.output message]
  | unreadable {line : List UInt8} {more : List (List UInt8)} {reason : String} :
      decodeLine line = .error reason →
      Dialogue message understand (line :: more) more (.error reason) [.output message]
  | understood {line : List UInt8} {more : List (List UInt8)} {text : String} {a : α} :
      decodeLine line = .ok text →
      understand (Text.trimmed text) = .ok a →
      Dialogue message understand (line :: more) more (.ok a) [.output message]
  | refused {line : List UInt8} {more after : List (List UInt8)} {text comment : String}
      {answer : Except String α}
      {events : List Event} : decodeLine line = .ok text →
        understand (Text.trimmed text) = .error comment →
      Dialogue message understand more after answer events →
      Dialogue message understand (line :: more) after answer
        (.output message :: .output comment :: events)

section Asking

variable {α : Type} (message : String) (understand : String → Except String α)

theorem events_ask (c : Console) : (ask message c).events = [.output message] := by
  obtain ⟨_ | ⟨b, rest⟩, starved⟩ := c <;> rfl

/-- A question that is asked once is not answered if the input is closed or its next line cannot be
    read. -/
theorem of_ask_error {c : Console} {reason : String} (h : (ask message c).answer = .error reason) :
    inputLines c.input = [] ∧ (ask message c).state.input = [] ∧ reason = closedMessage ∨
    ∃ line, inputLines c.input = line :: inputLines (ask message c).state.input ∧
      decodeLine line = .error reason := by
  obtain ⟨_ | ⟨b, rest⟩, starved⟩ := c
  · cases h
    exact .inl ⟨rfl, rfl, rfl⟩
  · refine .inr ⟨_, inputLines_cons b rest, ?_⟩
    simp only [ask, promptLine, readLine] at h
    cases hline : decodeLine (splitLine (b :: rest)).1 with
    | error fault =>
      rw [hline] at h
      cases h
      rfl
    | ok text =>
      rw [hline] at h
      cases h

/-- A question that is asked once is answered with the next line. -/
theorem of_ask_ok {c : Console} {text : String} (h : (ask message c).answer = .ok text) :
    ∃ line raw, inputLines c.input = line :: inputLines (ask message c).state.input ∧
      decodeLine line = .ok raw ∧ Text.trimmed raw = text := by
  obtain ⟨_ | ⟨b, rest⟩, starved⟩ := c
  · cases h
  · simp only [ask, promptLine, readLine] at h
    cases hline : decodeLine (splitLine (b :: rest)).1 with
    | error fault =>
      rw [hline] at h
      cases h
    | ok raw =>
      rw [hline] at h
      cases h
      exact ⟨_, raw, inputLines_cons b rest, hline, rfl⟩

/-- A question is asked in a dialogue, whatever is typed. -/
theorem dialogue_askUntil (c : Console) : Dialogue message understand (inputLines c.input)
    (inputLines (askUntil message understand c).state.input) (askUntil message understand c).answer
    (askUntil message understand c).events := by
  fun_induction askUntil message understand c with
  | case1 c reason h =>
    rw [events_ask]
    rcases of_ask_error message h with ⟨hlines, hstate, rfl⟩ | ⟨line, hlines, hline⟩
    · rw [hlines, hstate]
      exact .closed
    · rw [hlines]
      exact .unreadable hline
  | case2 c text h a ha =>
    obtain ⟨line, raw, hlines, hline, rfl⟩ := of_ask_ok message h
    rw [events_ask, hlines]
    exact .understood hline ha
  | case3 c text h comment hcomment reply ih =>
    obtain ⟨line, raw, hlines, hline, rfl⟩ := of_ask_ok message h
    rw [events_ask, hlines]
    exact .refused hline hcomment ih

end Asking

namespace Dialogue

variable {α : Type} {message : String} {understand : String → Except String α}
  {before after : List (List UInt8)} {answer : Except String α} {events : List Event}

/-- An answer has been understood. -/
theorem exists_text (h : Dialogue message understand before after answer events) {a : α}
    (ha : answer = .ok a) :
    ∃ text, understand text = .ok a := by
  induction h with
  | closed | unreadable => cases ha
  | understood _ htext =>
    cases ha
    exact ⟨_, htext⟩
  | refused _ _ _ ih => exact ih ha

/-- There only is no answer if the input ends or a line of it cannot be read. -/
theorem of_error (h : Dialogue message understand before after answer events) {reason : String}
    (hreason : answer = .error reason) : reason = closedMessage ∧ after = [] ∨
      reason = DiskFault.notText.message ∧
      ∃ line ∈ before, ∀ text, Text.decodeUtf8 line ≠ .ok text := by
  induction h with
  | closed =>
    cases hreason
    exact .inl ⟨rfl, rfl⟩
  | @unreadable line more fault hline =>
    cases hreason
    unfold decodeLine at hline
    split at hline
    · cases hline
    · rename_i hdecode
      cases hline
      exact .inr ⟨rfl, line, List.mem_cons_self, by simp [hdecode]⟩
  | understood => cases hreason
  | refused _ _ _ ih =>
    refine (ih hreason).imp_right fun ⟨hfault, line, hline, htext⟩ => ?_
    exact ⟨hfault, line, List.mem_cons_of_mem _ hline, htext⟩

end Dialogue

theorem lt_of_readChoice {count i : Nat} {word : List Char} (h : readChoice count word = .ok i) :
    i < count := by
  unfold readChoice at h
  dsimp only at h
  split at h
  · split at h
    · cases h
      omega
    · cases h
  · cases h

theorem nodup_eraseDups (xs : List Nat) : xs.eraseDups.Nodup := by
  induction hn : xs.length using Nat.strongRecOn generalizing xs with
  | ind n ih =>
    cases xs with
    | nil => simp
    | cons x xs =>
      have hlength := List.length_filter_le (fun b => !b == x) xs
      rw [List.length_cons] at hn
      rw [List.eraseDups_cons, List.nodup_cons]
      exact ⟨by simp [List.mem_eraseDups], ih _ (by omega) _ rfl⟩

/-- Options that are named in an answer are offered, and none is picked twice. -/
theorem of_readChoices {count : Nat} {text : String} {picked : List Nat}
    (h : readChoices count text = .ok picked) :
    picked.Nodup ∧ ∀ i ∈ picked, i < count := by
  obtain ⟨named, hnamed, h⟩ := Except.bind_eq_ok_iff.mp h
  cases h
  refine ⟨nodup_eraseDups named, fun i hi => ?_⟩
  obtain ⟨word, -, hword⟩ := Except.exists_mem_of_mapM hnamed i (List.mem_eraseDups.mp hi)
  exact lt_of_readChoice hword

/-- An answer to a prompt that is understood picks options that the prompt can be answered with, no
    matter whether it names them or keeps those that are picked by default. -/
theorem of_readSelection {title : String} {items : List String}
    {previews descriptions : Option (List String)} {isMulti : Bool} {dataPath text : String}
    {picked : List Nat}
    (h : readSelection (.ofOptions title items previews descriptions isMulti dataPath)
      text = .ok picked) :
    picked.Nodup ∧
      (Prompt.ofOptions title items previews descriptions isMulti dataPath).Admits picked := by
  unfold readSelection at h
  dsimp only at h
  split at h
  · rename_i named hnamed
    have hnamed : named.Nodup ∧ ∀ i ∈ named,
        i < (Prompt.ofOptions title items previews descriptions isMulti dataPath).items.length := by
      split at hnamed
      · cases hnamed
        refine ⟨Prompt.nodup_markedFrom 0 items, fun i hi => ?_⟩
        simpa [Prompt.ofOptions] using (Prompt.of_mem_markedFrom hi).2
      · exact of_readChoices hnamed
    split at h
    · rename_i hsingle
      cases h
      refine ⟨hnamed.1, hnamed.2, fun hmulti => ?_⟩
      simpa [hmulti] using hsingle
    · cases h
  · cases h

/-- Whatever a terminal picks, the prompt can be answered with. -/
theorem picksWell_host (disk : Disk) (facts : GameFacts) : (host disk facts).PicksWell := by
  intro title items previews descriptions isMulti dataPath c picked hpicked
  obtain ⟨text, htext⟩ := (dialogue_askUntil _ _ c).exists_text hpicked
  exact (of_readSelection htext).2

end Console

section Selections

variable {σ : Type} {ctx : Context σ} {steps : Nat} {text : String} {failure : Failure}
  {session : Session σ}

/-- No loaded program fails because of a selection if the host answers prompts as it should. -/
theorem not_isSelection_of_execute (hhost : ctx.host.PicksWell) {program : Program}
    (hparse : Program.parse text = .ok program) {start : Session σ}
    (h : start.execute ctx steps program = .failed failure session) :
    failure.isSelection = false := by
  have hrun := (Machine.sound_start hparse start).run ctx steps
  rw [Session.execute] at h
  rw [h] at hrun
  exact hrun.2 hhost

theorem not_isSelection_of_runScript (hhost : ctx.host.PicksWell) {state : σ}
    (h : runScript ctx state steps text = .failed failure session) :
    failure.isSelection = false := by
  unfold runScript at h
  dsimp only at h
  split at h
  · cases h
    rfl
  · rename_i program hparse
    split at h
    · cases h
    · exact not_isSelection_of_execute hhost hparse h

end Selections

/-- On a terminal, every prompt of a script and every question is asked in a dialogue, which takes a
    line for each answer that is refused and so comes to an end. A prompt is answered with distinct
    options that it offers, and with exactly one unless several are allowed; it only is not answered
    if the input ends or cannot be read. No script fails because of a selection. -/
theorem Console.dialogues_host (disk : Disk) (facts : GameFacts) :
    (∀ title items previews descriptions isMulti dataPath c,
      let prompt := Prompt.ofOptions title items previews descriptions isMulti dataPath
      let reply := (host disk facts).select prompt c
      (∃ events, reply.events = .output (showPrompt prompt) :: events ∧
        Dialogue "Choose: " (readSelection prompt) (inputLines c.input)
          (inputLines reply.state.input) reply.answer events) ∧
      ((∃ picked, reply.answer = .ok picked ∧ picked.Nodup ∧
          (∀ i ∈ picked, i < items.length) ∧
          (isMulti = false → picked.length = 1)) ∨
        reply.answer = .error closedMessage ∧ inputLines reply.state.input = [] ∨
        reply.answer = .error DiskFault.notText.message ∧
          ∃ line ∈ inputLines c.input, ∀ text, Text.decodeUtf8 line ≠ .ok text)) ∧
    (∀ question title c,
      let reply := (host disk facts).dialogYesNo question title c
      ∃ shown events, reply.events = .output shown :: events ∧
        Dialogue "[y]es, [n]o, or [c]ancel: " readDialog (inputLines c.input)
          (inputLines reply.state.input) reply.answer events) ∧
    ∀ (site : Site) c steps text line fault session,
      runScript ⟨site, host disk facts⟩ c steps text ≠
          .failed (.run ⟨line, .invalidSelection fault⟩) session := by
  refine ⟨?_, ?_, ?_⟩
  · intro title items previews descriptions isMulti dataPath c prompt reply
    have hdialogue := dialogue_askUntil "Choose: " (readSelection prompt) c
    refine ⟨⟨_, rfl, hdialogue⟩, ?_⟩
    cases hanswer : reply.answer with
    | ok picked =>
      obtain ⟨text, htext⟩ := hdialogue.exists_text hanswer
      obtain ⟨hnodup, hrange, hsingle⟩ := of_readSelection htext
      exact .inl ⟨picked, rfl, hnodup, by simpa [Prompt.ofOptions] using hrange, hsingle⟩
    | error reason =>
      refine .inr ((hdialogue.of_error hanswer).imp ?_ ?_)
      · rintro ⟨rfl, hafter⟩
        exact ⟨rfl, hafter⟩
      · rintro ⟨rfl, hline⟩
        exact ⟨rfl, hline⟩
  · intro question title c reply
    exact ⟨_, _, rfl, dialogue_askUntil _ _ c⟩
  · intro site c steps text line fault session h
    cases not_isSelection_of_runScript (picksWell_host disk facts) h

end InstallScript
