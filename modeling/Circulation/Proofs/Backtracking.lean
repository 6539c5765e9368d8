import Circulation.Proofs.Tokens
import Circulation.RuleText.Grammar

/-!
Contract: readers that go on in a text, and back in it where something else may be tried.

Owns:
- runs of readers, with every place at which they stand and every turn of their loops;
- what readers are made of: characters, chains, alternatives and loops;
- how a reader ends, from how its parts end, and that it agrees with a reading function if its parts
  do.

Does not own: what is read from a line.

Nothing here makes a loop end. It takes turns until one misses what it is for, and fails where a
turn reads nothing. So a reader has a limit for the turns of its loops, and it ends if all limits
above the length of its text lead to the same run.
-/

namespace Circulation.RuleText

/-! ## Runs -/

/-- Why a reader fails, with the fault of the part that it is for, if that is known. -/
inductive Failure where
  /-- Something else may be tried in its place. -/
  | missed (fault : Option SyntaxFault)
  /-- Nothing else may be tried. -/
  | refused (fault : Option SyntaxFault)
  /-- A turn of a loop has read nothing. -/
  | stalled
deriving DecidableEq, Repr

namespace Failure

def fault? : Failure → Option SyntaxFault
  | missed fault => fault
  | refused fault => fault
  | stalled => none

/-- The fault of a failure after which nothing else may be tried. -/
def refusal? : Failure → Option SyntaxFault
  | missed _ => none
  | refused fault => fault
  | stalled => none

def commit : Failure → Failure
  | missed fault => refused fault
  | refused fault => refused fault
  | stalled => stalled

def name (fault : SyntaxFault) : Failure → Failure
  | missed _ => missed fault
  | refused _ => refused fault
  | stalled => stalled

end Failure

/-- One turn of a loop. -/
structure Turn where
  start : List Char
  ending : Except Failure Unit
  /-- The text that the turn leaves. -/
  reached : List Char
  /-- The text that the loop has after the turn. -/
  rest : List Char

/-- A turn never leaves anything but an end of its text. One that reads something shortens the text,
and one that misses what it is for is undone, unless nothing else may be tried. -/
def Turn.Progresses (turn : Turn) : Prop :=
  turn.reached <:+ turn.start ∧
    match turn.ending with
    | .ok () => turn.rest = turn.reached ∧ turn.rest.length < turn.start.length
    | .error (.missed _) => turn.rest = turn.start
    | .error (.refused _) => turn.rest = turn.reached
    | .error .stalled => False

/-- What a reader does with a text. -/
structure Run (α : Type) where
  ending : Except Failure α
  /-- The text in front of which it stands at its end. -/
  rest : List Char
  /-- The texts in front of which it has come to stand, in order. -/
  points : List (List Char)
  /-- The turns of its loops, in the order in which they have ended. -/
  turns : List Turn

namespace Run

variable {α β : Type}

def still (ending : Except Failure α) (text : List Char) : Run α :=
  ⟨ending, text, [], []⟩

def moved (value : α) (rest : List Char) : Run α :=
  ⟨.ok value, rest, [rest], []⟩

/-- The same run with another ending. -/
def ended (run : Run α) (ending : Except Failure β) : Run β :=
  { run with ending := ending }

/-- The same run, and then back to `text`. -/
def back (run : Run α) (text : List Char) : Run α :=
  { run with rest := text, points := run.points ++ [text] }

/-- The same run as a turn of a loop. -/
def turned (run : Run α) (turn : Turn) : Run α :=
  { run with turns := run.turns ++ [turn] }

/-- A run, and then another one. -/
def followed (run : Run α) (later : Run β) : Run β :=
  { later with points := run.points ++ later.points, turns := run.turns ++ later.turns }

/-- What has come of a run. Nothing has where a loop has read nothing in a turn, or where the fault
is not known. -/
def outcome? (run : Run α) : Option (Except Stop α) :=
  match run.ending with
  | .ok value => some (.ok value)
  | .error failure => failure.fault?.map fun fault => .error ⟨fault, run.rest⟩

theorem rest_of_outcome? {run : Run α} {stop : Stop}
    (stopped : run.outcome? = some (.error stop)) : run.rest = stop.rest := by
  unfold outcome? at stopped
  split at stopped
  · simp at stopped
  · obtain ⟨fault, _, same⟩ := Option.map_eq_some_iff.mp stopped
    exact congrArg Stop.rest (Except.error.inj same)

/-- All places of the run lie in the text, and each turn of a loop makes progress there. -/
structure Within (run : Run α) (text : List Char) : Prop where
  rest : run.rest <:+ text
  points : ∀ point ∈ run.points, point <:+ text
  turns : ∀ turn ∈ run.turns, turn.start <:+ text ∧ turn.Progresses

namespace Within

variable {run : Run α} {later : Run β} {text : List Char}

theorem still (ending : Except Failure α) (text : List Char) : (still ending text).Within text :=
  ⟨List.suffix_refl text, by simp [Run.still], by simp [Run.still]⟩

theorem moved (value : α) {rest : List Char} (suffix : rest <:+ text) :
    (moved value rest).Within text :=
  ⟨suffix, by simpa [Run.moved] using suffix, by simp [Run.moved]⟩

theorem ended (within : run.Within text) (ending : Except Failure β) :
    (run.ended ending).Within text :=
  ⟨within.rest, within.points, within.turns⟩

theorem back (within : run.Within text) : (run.back text).Within text :=
  ⟨List.suffix_refl text, List.forall_mem_append.mpr ⟨within.points, by simp⟩, within.turns⟩

theorem turned (within : run.Within text) (turn : Turn) (starts : turn.start <:+ text)
    (progresses : turn.Progresses) : (run.turned turn).Within text :=
  ⟨within.rest, within.points,
    List.forall_mem_append.mpr ⟨within.turns, by simpa using ⟨starts, progresses⟩⟩⟩

/-- The second run starts where the first has ended. -/
theorem followed (within : run.Within text) (laterWithin : later.Within run.rest) :
    (run.followed later).Within text where
  rest := laterWithin.rest.trans within.rest
  points := List.forall_mem_append.mpr ⟨within.points, fun point member =>
    (laterWithin.points point member).trans within.rest⟩
  turns := List.forall_mem_append.mpr ⟨within.turns, fun turn member =>
    ⟨(laterWithin.turns turn member).1.trans within.rest, (laterWithin.turns turn member).2⟩⟩

end Within

end Run

/-! ## Readers -/

/-- A reader of the beginning of a text. Nothing comes of it where a loop does not end within as
many turns as the limit says. -/
def Reader (α : Type) : Type :=
  (limit : Nat) → (text : List Char) → Option (Run α)

namespace Reader

variable {α β : Type}

instance : Monad Reader where
  pure value := fun _ text => some (.still (.ok value) text)
  bind first next := fun limit text =>
    match first limit text with
    | none => none
    | some run =>
        match run.ending with
        | .error failure => some (run.ended (.error failure))
        | .ok value => (next value limit run.rest).map run.followed

def skipping (accepts : Char → Bool) : Reader Unit :=
  fun _ text => some (.moved () (text.dropWhile accepts))

def word : Reader String :=
  fun _ text =>
    match word? text with
    | none => some (.still (.error (.missed none)) text)
    | some (word, rest) => some (.moved word rest)

def literal (expected : List Char) : Reader Unit :=
  fun _ text =>
    match skipLiteral? expected text with
    | none => some (.still (.error (.missed none)) text)
    | some rest => some (.moved () rest)

def textEnd : Reader Unit :=
  fun _ text => some (.still (if text = [] then .ok () else .error (.missed none)) text)

/-- The same reader, with other failures. -/
def failing (reader : Reader α) (change : Failure → Failure) : Reader α :=
  fun limit text => (reader limit text).map fun run => run.ended (run.ending.mapError change)

/-- The same reader, where nothing else may be tried. -/
def committed (reader : Reader α) : Reader α :=
  reader.failing .commit

/-- The same reader, for a part of which the fault is known. -/
def named (reader : Reader α) (fault : SyntaxFault) : Reader α :=
  reader.failing (.name fault)

/-- The same reader, for what it reads only if that means something. -/
def meaning (reader : Reader α) (mean : α → Option β) : Reader β :=
  fun limit text =>
    (reader limit text).map fun run =>
      match run.ending with
      | .error failure => run.ended (.error failure)
      | .ok value =>
          match mean value with
          | none => (run.back text).ended (.error (.missed none))
          | some meant => run.ended (.ok meant)

/-- The second reader is tried from the same place where the first has missed. -/
def either (first second : Reader α) : Reader α :=
  fun limit text =>
    match first limit text with
    | none => none
    | some run =>
        match run.ending with
        | .error (.missed _) => (second limit text).map (run.back text).followed
        | _ => some run

def optional (reader : Reader α) : Reader (Option α) :=
  either (do return some (← reader)) (pure none)

/-- As many turns as there are. The last one misses what it is for, and the loop goes back to where
that turn has started. -/
def many (reader : Reader α) : Reader (List α)
  | 0, _ => none
  | limit + 1, text =>
      match reader (limit + 1) text with
      | none => none
      | some run =>
          match run.ending with
          | .error (.missed fault) =>
              let turn := ⟨text, .error (.missed fault), run.rest, text⟩
              some (((run.back text).turned turn).ended (.ok []))
          | .error failure =>
              let turn := ⟨text, .error failure, run.rest, run.rest⟩
              some ((run.turned turn).ended (.error failure))
          | .ok value =>
              if run.rest.length = text.length then
                let turn := ⟨text, .error .stalled, run.rest, run.rest⟩
                some ((run.turned turn).ended (.error .stalled))
              else
                let turn := ⟨text, .ok (), run.rest, run.rest⟩
                (many reader limit run.rest).map fun later =>
                  (run.turned turn).followed (later.ended (later.ending.map (value :: ·)))

/-! ## How readers end -/

/-- The reader comes to this ending in front of this rest, within the text and with progress, for
every limit above the length of the text. -/
def Ends (reader : Reader α) (text : List Char) (ending : Except Failure α) (rest : List Char) :
    Prop :=
  ∃ points turns, (Run.mk ending rest points turns).Within text ∧
    ∀ limit, text.length < limit → reader limit text = some ⟨ending, rest, points, turns⟩

section Laws

variable {reader : Reader α} {text rest : List Char} {ending : Except Failure α}

theorem ends_pure (value : α) (text : List Char) :
    (pure value : Reader α).Ends text (.ok value) text :=
  ⟨[], [], .still _ text, fun _ _ => rfl⟩

theorem ends_skipping (accepts : Char → Bool) (text : List Char) :
    (skipping accepts).Ends text (.ok ()) (text.dropWhile accepts) :=
  ⟨_, [], .moved () (List.dropWhile_suffix accepts), fun _ _ => rfl⟩

theorem ends_word {found : String} (begins : word? text = some (found, rest)) :
    word.Ends text (.ok found) rest := by
  have suffix : rest <:+ text := ⟨found.toList, (word?_eq_some_iff.mp begins).1.symm⟩
  refine ⟨_, [], .moved found suffix, fun limit _ => ?_⟩
  rw [word, begins]
  rfl

theorem ends_word_of_none (missing : word? text = none) :
    word.Ends text (.error (.missed none)) text := by
  refine ⟨[], [], .still _ text, fun limit _ => ?_⟩
  rw [word, missing]
  rfl

theorem ends_literal {expected : List Char} (begins : text = expected ++ rest) :
    (literal expected).Ends text (.ok ()) rest := by
  refine ⟨_, [], .moved () ⟨expected, begins.symm⟩, fun limit _ => ?_⟩
  rw [literal, skipLiteral?_eq_some_iff.mpr begins]
  rfl

theorem ends_literal_of_none {expected : List Char} (missing : skipLiteral? expected text = none) :
    (literal expected).Ends text (.error (.missed none)) text := by
  refine ⟨[], [], .still _ text, fun limit _ => ?_⟩
  rw [literal, missing]
  rfl

theorem ends_textEnd : textEnd.Ends [] (.ok ()) [] :=
  ⟨[], [], .still _ [], fun _ _ => rfl⟩

theorem ends_textEnd_of_ne (nonempty : text ≠ []) :
    textEnd.Ends text (.error (.missed none)) text := by
  refine ⟨[], [], .still _ text, fun limit _ => ?_⟩
  rw [textEnd, if_neg nonempty]
  rfl

theorem Ends.bind {value : α} {middle : List Char} {next : α → Reader β}
    {nextEnding : Except Failure β} (first : reader.Ends text (.ok value) middle)
    (others : (next value).Ends middle nextEnding rest) :
    (reader >>= next).Ends text nextEnding rest := by
  obtain ⟨points, turns, within, reads⟩ := first
  obtain ⟨laterPoints, laterTurns, laterWithin, readsLater⟩ := others
  refine ⟨_, _, within.followed laterWithin, fun limit above => ?_⟩
  have aboveMiddle : middle.length < limit := Nat.lt_of_le_of_lt within.rest.length_le above
  show (match reader limit text with | none => none | some run => _) = _
  rw [reads limit above]
  show (next value limit middle).map _ = _
  rw [readsLater limit aboveMiddle]
  rfl

theorem Ends.bind_error {failure : Failure} (first : reader.Ends text (.error failure) rest)
    (next : α → Reader β) : (reader >>= next).Ends text (.error failure) rest := by
  obtain ⟨points, turns, within, reads⟩ := first
  refine ⟨points, turns, within.ended (.error failure), fun limit above => ?_⟩
  show (match reader limit text with | none => none | some run => _) = _
  rw [reads limit above]
  rfl

theorem Ends.failing (ends : reader.Ends text ending rest) (change : Failure → Failure) :
    (reader.failing change).Ends text (ending.mapError change) rest := by
  obtain ⟨points, turns, within, reads⟩ := ends
  refine ⟨points, turns, within.ended _, fun limit above => ?_⟩
  rw [Reader.failing, reads limit above]
  rfl

theorem Ends.meaning {value : α} {mean : α → Option β} {meant : β}
    (ends : reader.Ends text (.ok value) rest) (means : mean value = some meant) :
    (reader.meaning mean).Ends text (.ok meant) rest := by
  obtain ⟨points, turns, within, reads⟩ := ends
  refine ⟨points, turns, within.ended _, fun limit above => ?_⟩
  rw [Reader.meaning, reads limit above]
  simp only [Option.map_some, means]
  rfl

theorem Ends.meaning_of_none {value : α} {mean : α → Option β}
    (ends : reader.Ends text (.ok value) rest) (meaningless : mean value = none) :
    (reader.meaning mean).Ends text (.error (.missed none)) text := by
  obtain ⟨points, turns, within, reads⟩ := ends
  refine ⟨_, turns, within.back.ended _, fun limit above => ?_⟩
  rw [Reader.meaning, reads limit above]
  simp only [Option.map_some, meaningless]
  rfl

theorem Ends.meaning_error {failure : Failure} (ends : reader.Ends text (.error failure) rest)
    (mean : α → Option β) : (reader.meaning mean).Ends text (.error failure) rest := by
  obtain ⟨points, turns, within, reads⟩ := ends
  refine ⟨points, turns, within.ended _, fun limit above => ?_⟩
  rw [Reader.meaning, reads limit above]
  rfl

theorem Ends.either {second : Reader α} {fault : Option SyntaxFault} {reached : List Char}
    (missed : reader.Ends text (.error (.missed fault)) reached)
    (others : second.Ends text ending rest) : (reader.either second).Ends text ending rest := by
  obtain ⟨points, turns, within, reads⟩ := missed
  obtain ⟨laterPoints, laterTurns, laterWithin, readsLater⟩ := others
  refine ⟨_, _, within.back.followed laterWithin, fun limit above => ?_⟩
  rw [Reader.either, reads limit above]
  show (second limit text).map _ = _
  rw [readsLater limit above]
  rfl

theorem Ends.either_of_ne (ends : reader.Ends text ending rest) (second : Reader α)
    (settled : ∀ fault, ending ≠ .error (.missed fault)) :
    (reader.either second).Ends text ending rest := by
  obtain ⟨points, turns, within, reads⟩ := ends
  refine ⟨points, turns, within, fun limit above => ?_⟩
  rw [Reader.either, reads limit above]
  cases ending with
  | ok value => rfl
  | error failure =>
    cases failure with
    | missed fault => exact absurd rfl (settled fault)
    | refused fault => rfl
    | stalled => rfl

theorem Ends.optional {value : α} (ends : reader.Ends text (.ok value) rest) :
    (Reader.optional reader).Ends text (.ok (some value)) rest :=
  (ends.bind (ends_pure (some value) rest)).either_of_ne _ (by simp)

theorem Ends.optional_of_missed {fault : Option SyntaxFault} {reached : List Char}
    (missed : reader.Ends text (.error (.missed fault)) reached) :
    (Reader.optional reader).Ends text (.ok none) text :=
  (missed.bind_error _).either (ends_pure none text)

theorem Ends.many_of_missed {fault : Option SyntaxFault} {reached : List Char}
    (missed : reader.Ends text (.error (.missed fault)) reached) :
    (many reader).Ends text (.ok []) text := by
  obtain ⟨points, turns, within, reads⟩ := missed
  have turned := within.back.turned ⟨text, .error (.missed fault), reached, text⟩
    (List.suffix_refl text) ⟨within.rest, rfl⟩
  refine ⟨_, _, turned.ended (.ok []), fun limit above => ?_⟩
  obtain ⟨limit, rfl⟩ := Nat.exists_eq_succ_of_ne_zero (Nat.ne_zero_of_lt above)
  rw [many, reads _ above]
  rfl

theorem Ends.many_of_refused {fault : Option SyntaxFault}
    (refused : reader.Ends text (.error (.refused fault)) rest) :
    (many reader).Ends text (.error (.refused fault)) rest := by
  obtain ⟨points, turns, within, reads⟩ := refused
  have turned := within.turned ⟨text, .error (.refused fault), rest, rest⟩
    (List.suffix_refl text) ⟨within.rest, rfl⟩
  refine ⟨_, _, turned.ended (.error (.refused fault)), fun limit above => ?_⟩
  obtain ⟨limit, rfl⟩ := Nat.exists_eq_succ_of_ne_zero (Nat.ne_zero_of_lt above)
  rw [many, reads _ above]
  rfl

/-- A turn that shortens the text leaves enough of the limit for the others. -/
theorem Ends.many_of_ok {value : α} {middle : List Char} {othersEnding : Except Failure (List α)}
    (read : reader.Ends text (.ok value) middle) (shorter : middle.length < text.length)
    (others : (many reader).Ends middle othersEnding rest) :
    (many reader).Ends text (othersEnding.map (value :: ·)) rest := by
  obtain ⟨points, turns, within, reads⟩ := read
  obtain ⟨laterPoints, laterTurns, laterWithin, readsLater⟩ := others
  have turned := within.turned ⟨text, .ok (), middle, middle⟩ (List.suffix_refl text)
    ⟨within.rest, rfl, shorter⟩
  refine ⟨_, _, turned.followed (laterWithin.ended _), fun limit above => ?_⟩
  obtain ⟨limit, rfl⟩ := Nat.exists_eq_succ_of_ne_zero (Nat.ne_zero_of_lt above)
  have aboveMiddle : middle.length < limit := by omega
  rw [many, reads _ above]
  simp only [if_neg (Nat.ne_of_lt shorter), readsLater limit aboveMiddle]
  rfl

end Laws

end Reader

open Reader

/-! ## Readers and reading functions -/

/-- The reader does with the text what a reading function has done: it ends with the value that was
read in front of what is left, or in front of the place where reading stopped, with a failure that
reports the same fault. -/
structure Agrees {α γ : Type} (reported : Failure → Option SyntaxFault) (reader : Reader α)
    (text : List Char) (value : γ → α) (rest : γ → List Char) (outcome : Except Stop γ) :
    Prop where
  ok : ∀ read, outcome = .ok read → reader.Ends text (.ok (value read)) (rest read)
  error : ∀ stop, outcome = .error stop →
    ∃ failure, reported failure = some stop.fault ∧ reader.Ends text (.error failure) stop.rest

namespace Agrees

variable {α β γ δ : Type} {reported : Failure → Option SyntaxFault} {reader : Reader α}
  {text : List Char} {value : γ → α} {rest : γ → List Char} {outcome : Except Stop γ}

theorem success {read : γ} (ends : reader.Ends text (.ok (value read)) (rest read)) :
    Agrees reported reader text value rest (.ok read) := by
  constructor
  · intro other same
    rwa [← Except.ok.inj same]
  · simp

theorem stop {failure : Failure} {stop : Stop} (same : reported failure = some stop.fault)
    (ends : reader.Ends text (.error failure) stop.rest) :
    Agrees reported reader text value rest (.error stop) := by
  constructor
  · simp
  · intro other stopped
    rw [← Except.error.inj stopped]
    exact ⟨failure, same, ends⟩

theorem bind {next : α → Reader β} {nextValue : δ → β} {nextRest : δ → List Char}
    {follow : γ → Except Stop δ} (first : Agrees reported reader text value rest outcome)
    (others : ∀ read, Agrees reported (next (value read)) (rest read) nextValue nextRest
      (follow read)) :
    Agrees reported (reader >>= next) text nextValue nextRest (outcome >>= follow) := by
  constructor
  · intro result ended
    obtain ⟨read, firstEnded, nextEnded⟩ := bind_eq_ok_iff.mp ended
    exact (first.ok read firstEnded).bind ((others read).ok result nextEnded)
  · intro stop stopped
    rcases bind_eq_error_iff.mp stopped with stopped | ⟨read, firstEnded, stopped⟩
    · obtain ⟨failure, same, ends⟩ := first.error stop stopped
      exact ⟨failure, same, ends.bind_error next⟩
    · obtain ⟨failure, same, ends⟩ := (others read).error stop stopped
      exact ⟨failure, same, (first.ok read firstEnded).bind ends⟩

theorem map (agrees : Agrees reported reader text value rest outcome) (made : α → β) :
    Agrees reported (reader >>= fun read => pure (made read)) text (fun read => made (value read))
      rest outcome := by
  constructor
  · intro read ended
    exact (agrees.ok read ended).bind (ends_pure _ _)
  · intro stop stopped
    obtain ⟨failure, same, ends⟩ := agrees.error stop stopped
    exact ⟨failure, same, ends.bind_error _⟩

/-- Behind a reader that succeeds. -/
theorem after {before : Reader β} {passed : β} {middle : List Char} {next : β → Reader α}
    (ends : before.Ends text (.ok passed) middle)
    (agrees : Agrees reported (next passed) middle value rest outcome) :
    Agrees reported (before >>= next) text value rest outcome := by
  constructor
  · intro read ended
    exact ends.bind (agrees.ok read ended)
  · intro stop stopped
    obtain ⟨failure, same, stops⟩ := agrees.error stop stopped
    exact ⟨failure, same, ends.bind stops⟩

theorem committed (agrees : Agrees Failure.fault? reader text value rest outcome) :
    Agrees Failure.refusal? reader.committed text value rest outcome := by
  constructor
  · intro read ended
    exact (agrees.ok read ended).failing .commit
  · intro stop stopped
    obtain ⟨failure, same, ends⟩ := agrees.error stop stopped
    refine ⟨failure.commit, ?_, ends.failing .commit⟩
    rw [← same]
    cases failure <;> rfl

theorem of_refusal (agrees : Agrees Failure.refusal? reader text value rest outcome) :
    Agrees Failure.fault? reader text value rest outcome := by
  refine ⟨agrees.ok, fun stop stopped => ?_⟩
  obtain ⟨failure, same, ends⟩ := agrees.error stop stopped
  refine ⟨failure, ?_, ends⟩
  rw [← same]
  cases failure with
  | missed fault => simp [Failure.refusal?] at same
  | refused fault => rfl
  | stalled => rfl

/-- The first of two alternatives, if nothing else may be tried where it fails. -/
theorem either (agrees : Agrees Failure.refusal? reader text value rest outcome)
    (second : Reader α) :
    Agrees Failure.refusal? (reader.either second) text value rest outcome := by
  constructor
  · intro read ended
    exact (agrees.ok read ended).either_of_ne second (by simp)
  · intro stop stopped
    obtain ⟨failure, same, ends⟩ := agrees.error stop stopped
    refine ⟨failure, same, ends.either_of_ne second ?_⟩
    rintro fault ⟨rfl⟩
    simp [Failure.refusal?] at same

/-- The second of two alternatives, where the first misses. -/
theorem either_of_missed {first : Reader α} {fault : Option SyntaxFault} {reached : List Char}
    (missed : first.Ends text (.error (.missed fault)) reached)
    (agrees : Agrees reported reader text value rest outcome) :
    Agrees reported (first.either reader) text value rest outcome := by
  constructor
  · intro read ended
    exact missed.either (agrees.ok read ended)
  · intro stop stopped
    obtain ⟨failure, same, ends⟩ := agrees.error stop stopped
    exact ⟨failure, same, missed.either ends⟩

/-- A turn that shortens the text, and then the others. -/
theorem many (turn : Agrees Failure.refusal? reader text value rest outcome)
    (shortens : ∀ read, outcome = .ok read → (rest read).length < text.length)
    {follow : γ → Except Stop (List α × List Char)}
    (others : ∀ read, outcome = .ok read →
      Agrees Failure.refusal? (many reader) (rest read) Prod.fst Prod.snd (follow read)) :
    Agrees Failure.refusal? (many reader) text Prod.fst Prod.snd
      (outcome >>= fun read => follow read >>= fun more => .ok (value read :: more.1, more.2)) := by
  constructor
  · intro result ended
    obtain ⟨read, turnEnded, remaining⟩ := bind_eq_ok_iff.mp ended
    obtain ⟨more, othersEnded, same⟩ := bind_eq_ok_iff.mp remaining
    cases Except.ok.inj same
    have ends := (others read turnEnded).ok more othersEnded
    exact (turn.ok read turnEnded).many_of_ok (shortens read turnEnded) ends
  · intro stop stopped
    rcases bind_eq_error_iff.mp stopped with stopped | ⟨read, turnEnded, stopped⟩
    · obtain ⟨failure, same, ends⟩ := turn.error stop stopped
      refine ⟨failure, same, ?_⟩
      cases failure with
      | missed fault => simp [Failure.refusal?] at same
      | refused fault => exact ends.many_of_refused
      | stalled => simp [Failure.refusal?] at same
    · rcases bind_eq_error_iff.mp stopped with stopped | ⟨more, _, stopped⟩
      · obtain ⟨failure, same, ends⟩ := (others read turnEnded).error stop stopped
        exact ⟨failure, same, (turn.ok read turnEnded).many_of_ok (shortens read turnEnded) ends⟩
      · simp at stopped

/-- A reader that agrees ends, for all limits in the same run, and that comes to the same. -/
theorem exists_run {left : α → List Char} {outcome : Except Stop α}
    (agrees : Agrees Failure.fault? reader text id left outcome) :
    ∃ run, (∀ limit, text.length < limit → reader limit text = some run) ∧ run.Within text ∧
      run.outcome? = some outcome := by
  cases outcome with
  | ok value =>
    obtain ⟨points, turns, within, reads⟩ := agrees.ok value rfl
    exact ⟨_, reads, within, rfl⟩
  | error stop =>
    obtain ⟨failure, same, points, turns, within, reads⟩ := agrees.error stop rfl
    refine ⟨_, reads, within, ?_⟩
    show failure.fault?.map _ = _
    rw [same]
    rfl

end Agrees

end Circulation.RuleText
