import Circulation.Proofs.Continuations
import Circulation.Proofs.Keywords

/-!
Contract: what of a rule text is no content.

Owns:
- the lines of a text together with their endings;
- the margin that may stand around a line: blanks before and behind it, and a comment;
- that a text says the same, or has the same fault, whatever margins stand around its lines, and
  with either line ending.

Does not own: the content of a line.

A fault of a line is found at another place if there is something around the line. Its token is
what stays the same, and with it the whole outcome.
-/

namespace Circulation

/-! ## Lines with their endings -/

namespace Text

/-- The lines of a text, each with its ending: a line feed, a carriage return and a line feed, or
for what follows the last line feed nothing. -/
def endedLines : List Char → List (List Char × List Char)
  | [] => []
  | '\n' :: rest => ([], ['\n']) :: endedLines rest
  | '\r' :: '\n' :: rest => ([], ['\r', '\n']) :: endedLines rest
  | char :: rest =>
      match endedLines rest with
      | [] => [([char], [])]
      | (line, ending) :: lines => (char :: line, ending) :: lines

/-- A text of lines with their endings. -/
def joined (lines : List (List Char × List Char)) : List Char :=
  lines.flatMap fun line => line.1 ++ line.2

theorem joined_cons (line ending : List Char) (lines : List (List Char × List Char)) :
    joined ((line, ending) :: lines) = line ++ ending ++ joined lines :=
  List.flatMap_cons

/-- Lines that a text can have: none goes on behind its ending, and none has a carriage return that
would be a part of its ending. -/
inductive Divided : List (List Char × List Char) → Prop where
  | nil : Divided []
  | last {line : List Char} (nonempty : line ≠ []) (single : '\n' ∉ line) : Divided [(line, [])]
  | lineFeed {line : List Char} {lines : List (List Char × List Char)} (single : '\n' ∉ line)
      (noReturn : line.getLast? ≠ some '\r') (others : Divided lines) :
      Divided ((line, ['\n']) :: lines)
  | returned {line : List Char} {lines : List (List Char × List Char)} (single : '\n' ∉ line)
      (others : Divided lines) : Divided ((line, ['\r', '\n']) :: lines)

theorem joined_endedLines (text : List Char) : joined (endedLines text) = text := by
  fun_induction endedLines text with
  | case1 => rfl
  | case2 rest ih => exact congrArg (List.cons '\n') ih
  | case3 rest ih => exact congrArg (fun others => '\r' :: '\n' :: others) ih
  | case4 char rest notFeed notReturn nothing ih =>
    rw [nothing] at ih
    rw [← ih]
    rfl
  | case5 char rest notFeed notReturn line ending lines others ih =>
    rw [others] at ih
    rw [← ih]
    rfl

theorem divided_endedLines (text : List Char) : Divided (endedLines text) := by
  fun_induction endedLines text with
  | case1 => exact .nil
  | case2 rest ih => exact .lineFeed (by simp) (by simp) ih
  | case3 rest ih => exact .returned (by simp) ih
  | case4 char rest notFeed notReturn nothing ih =>
    refine .last (List.cons_ne_nil _ _) ?_
    rw [List.mem_singleton]
    exact fun same => notFeed same.symm
  | case5 char rest notFeed notReturn line ending lines others ih =>
    have whole := joined_endedLines rest
    rw [others] at ih whole
    have single (inLine : '\n' ∉ line) : '\n' ∉ char :: line := by
      rw [List.mem_cons, not_or]
      exact ⟨fun same => notFeed same.symm, inLine⟩
    cases ih with
    | last nonempty inLine => exact .last (List.cons_ne_nil _ _) (single inLine)
    | returned inLine others => exact .returned (single inLine) others
    | lineFeed inLine noReturn others =>
      refine .lineFeed (single inLine) ?_ others
      cases line with
      | nil =>
        -- The character is no carriage return, or it would be a part of the ending.
        intro isLast
        exact notReturn _ (Option.some.inj isLast) whole.symm
      | cons next line => rwa [List.getLast?_cons_cons]

theorem physicalLines_append_returned {line : List Char} (rest : List Char) (single : '\n' ∉ line) :
    physicalLines (line ++ '\r' :: '\n' :: rest) = line :: physicalLines rest := by
  have inside : '\n' ∉ line ++ ['\r'] := by simpa using single
  have ended := physicalLines_append_lineFeed rest inside
  rw [List.append_assoc] at ended
  simpa [withoutReturn] using ended

/-- The lines of a text without their endings are its physical lines. -/
theorem map_fst_endedLines (text : List Char) :
    (endedLines text).map Prod.fst = physicalLines text := by
  have divided := divided_endedLines text
  have whole := joined_endedLines text
  generalize endedLines text = lines at divided whole
  induction divided generalizing text with
  | nil => rw [← whole]; rfl
  | @last line nonempty single =>
    have only : joined [(line, [])] = line := by simp [joined]
    rw [← whole, only, physicalLines_of_not_mem nonempty single]
    rfl
  | @lineFeed line lines single noReturn others ih =>
    have begins : joined ((line, ['\n']) :: lines) = line ++ '\n' :: joined lines := by
      simp [joined]
    rw [← whole, begins, physicalLines_append_lineFeed _ single, ← ih _ rfl, withoutReturn,
      if_neg noReturn]
    rfl
  | @returned line lines single others ih =>
    have begins : joined ((line, ['\r', '\n']) :: lines) =
        line ++ '\r' :: '\n' :: joined lines := by
      simp [joined]
    rw [← whole, begins, physicalLines_append_returned _ single, ← ih _ rfl]
    rfl

/-- The same text with a carriage return in front of every line feed. -/
def withReturns (text : List Char) : List Char :=
  text.flatMap fun char => if char = '\n' then ['\r', '\n'] else [char]

theorem physicalLines_withReturns {text : List Char} (noReturn : '\r' ∉ text) :
    physicalLines (withReturns text) = physicalLines text := by
  induction text with
  | nil => rfl
  | cons char text ih =>
    rw [List.mem_cons, not_or] at noReturn
    have others := ih noReturn.2
    by_cases isFeed : char = '\n'
    · have begins : withReturns (char :: text) = '\r' :: '\n' :: withReturns text := by
        simp [withReturns, isFeed]
      rw [begins, isFeed, physicalLines, physicalLines, others]
    · have begins : withReturns (char :: text) = char :: withReturns text := by
        simp [withReturns, isFeed]
      rw [begins, physicalLines, physicalLines, others]
      · exact isFeed
      · exact fun _ same => absurd same.symm noReturn.1
      · exact isFeed
      · exact fun _ same => absurd same.symm noReturn.1

/-! ## Pieces between boundaries -/

section Pieces

variable {isBoundary : Char → Bool} {word boundaries : List Char}
  (bound : ∀ char ∈ boundaries, isBoundary char = true) (nonempty : word ≠ [])

include bound nonempty

theorem mem_pieces_boundaries_append {text : List Char} :
    word ∈ pieces isBoundary (boundaries ++ text) ↔ word ∈ pieces isBoundary text := by
  induction boundaries with
  | nil => rfl
  | cons char boundaries ih =>
    rw [List.forall_mem_cons] at bound
    rw [List.cons_append, pieces, if_pos bound.1, List.mem_cons, ih bound.2]
    simp [nonempty]

theorem mem_pieces_append_boundaries {text : List Char} :
    word ∈ pieces isBoundary (text ++ boundaries) ↔ word ∈ pieces isBoundary text := by
  cases boundaries with
  | nil => rw [List.append_nil]
  | cons char boundaries =>
    rw [List.forall_mem_cons] at bound
    have noWord : word ∉ pieces isBoundary boundaries := by
      rw [← List.append_nil boundaries, mem_pieces_boundaries_append bound.2 nonempty]
      simpa [pieces] using nonempty
    rw [pieces_eq_splitOnP] at noWord ⊢
    rw [List.splitOnP_append_cons _ _ bound.1, List.mem_append, pieces_eq_splitOnP]
    exact or_iff_left noWord

end Pieces

end Text

/-! ## Margins -/

namespace RuleText

/-- What may stand around the content of a line: blanks before and behind it, and a comment. -/
structure Margin where
  before : List Char
  after : List Char
  remark : Option (List Char)
  beforeBlank : AllBlank before
  afterBlank : AllBlank after
  remarkSingle : ∀ text ∈ remark, '\n' ∉ text

namespace Margin

def comment (margin : Margin) : List Char :=
  margin.remark.elim [] fun text => '#' :: text

def around (margin : Margin) (line : List Char) : List Char :=
  margin.before ++ (line ++ (margin.after ++ margin.comment))

end Margin

/-- A text with a margin around each of its lines, by their position. -/
def layOut (margins : Nat → Margin) (text : String) : String :=
  .ofList (Text.joined ((Text.endedLines text.toList).mapIdx fun position line =>
    ((margins position).around line.1, line.2)))

/-! ### Lines in margins -/

theorem withoutReturn_append_cons {char : Char} (front text : List Char) (visible : char ≠ '\r') :
    Text.withoutReturn (front ++ char :: text) = front ++ char :: Text.withoutReturn text := by
  cases text with
  | nil =>
    have ends : (front ++ [char]).getLast? ≠ some '\r' := by simpa using visible
    rw [Text.withoutReturn, if_neg ends]
    rfl
  | cons next text =>
    have last : (front ++ char :: next :: text).getLast? = (next :: text).getLast? := by
      rw [List.getLast?_append_of_ne_nil _ (List.cons_ne_nil _ _), List.getLast?_cons_cons]
    rw [Text.withoutReturn, Text.withoutReturn, last]
    split
    · rw [List.dropLast_append_of_ne_nil (List.cons_ne_nil _ _),
        List.dropLast_cons_of_ne_nil (List.cons_ne_nil _ _)]
    · rfl

theorem mem_of_mem_withoutReturn {text : List Char} {char : Char}
    (member : char ∈ Text.withoutReturn text) : char ∈ text := by
  unfold Text.withoutReturn at member
  split at member
  · exact List.mem_of_mem_dropLast member
  · exact member

theorem AllBlank.not_mem {blanks : List Char} (blank : AllBlank blanks) {char : Char}
    (visible : isBlank char = false) : char ∉ blanks := by
  intro member
  rw [blank char member] at visible
  simp at visible

theorem getLast?_append_ne {front back : List Char} {char : Char}
    (frontEnds : front.getLast? ≠ some char) (backEnds : back.getLast? ≠ some char) :
    (front ++ back).getLast? ≠ some char := by
  rw [List.getLast?_append]
  cases ends : back.getLast? with
  | none => simpa using frontEnds
  | some last => simpa [ends] using backEnds

theorem Margin.single_around (margin : Margin) {line : List Char} (single : '\n' ∉ line) :
    '\n' ∉ margin.around line := by
  have inComment : '\n' ∉ margin.comment := by
    unfold comment
    cases written : margin.remark with
    | none => simp
    | some text => simpa using margin.remarkSingle text written
  simp only [around, List.mem_append, not_or]
  exact ⟨margin.beforeBlank.not_mem (by decide), single,
    margin.afterBlank.not_mem (by decide), inComment⟩

/-- The carriage return that a line feed takes along is none of the content. -/
theorem Margin.exists_withoutReturn_around (margin : Margin) {line : List Char}
    (noReturn : line.getLast? ≠ some '\r') :
    ∃ other : Margin, Text.withoutReturn (margin.around line) = other.around line := by
  cases written : margin.remark with
  | none =>
    have bare : margin.around line = margin.before ++ (line ++ margin.after) := by
      simp [around, comment, written]
    have notBlank {blanks : List Char} (blank : AllBlank blanks) : blanks.getLast? ≠ some '\r' :=
      fun ends => blank.not_mem (by decide) (List.mem_of_getLast? ends)
    refine ⟨margin, if_neg ?_⟩
    rw [bare]
    exact getLast?_append_ne (notBlank margin.beforeBlank)
      (getLast?_append_ne noReturn (notBlank margin.afterBlank))
  | some text =>
    have remarked : margin.around line =
        (margin.before ++ (line ++ margin.after)) ++ '#' :: text := by
      simp [around, comment, written]
    have shorter : '\n' ∉ Text.withoutReturn text :=
      fun member => margin.remarkSingle text written (mem_of_mem_withoutReturn member)
    refine ⟨⟨margin.before, margin.after, some (Text.withoutReturn text), margin.beforeBlank,
      margin.afterBlank, by simpa using shorter⟩, ?_⟩
    rw [remarked, withoutReturn_append_cons _ _ (by decide)]
    simp [around, comment]

/-- The line with a margin around it. -/
def Within (line other : List Char) : Prop :=
  ∃ margin : Margin, other = margin.around line

theorem within_physicalLines_joined {lines : List (List Char × List Char)}
    (divided : Text.Divided lines) (margins : Nat → Margin) :
    List.Forall₂ Within (lines.map Prod.fst)
      (Text.physicalLines (Text.joined (lines.mapIdx fun position line =>
        ((margins position).around line.1, line.2)))) := by
  induction divided generalizing margins with
  | nil => exact .nil
  | @last line nonempty single =>
    have only : Text.joined [((margins 0).around line, [])] = (margins 0).around line := by
      simp [Text.joined]
    have visible : (margins 0).around line ≠ [] := by simp [Margin.around, nonempty]
    show List.Forall₂ Within [line]
      (Text.physicalLines (Text.joined [((margins 0).around line, [])]))
    rw [only, Text.physicalLines_of_not_mem visible ((margins 0).single_around single)]
    exact .cons ⟨margins 0, rfl⟩ .nil
  | @lineFeed line lines single noReturn others ih =>
    obtain ⟨margin, same⟩ := (margins 0).exists_withoutReturn_around noReturn
    rw [List.mapIdx_cons, Text.joined_cons, List.append_assoc, List.singleton_append,
      Text.physicalLines_append_lineFeed _ ((margins 0).single_around single), same]
    exact .cons ⟨margin, rfl⟩ (ih fun position => margins (position + 1))
  | @returned line lines single others ih =>
    rw [List.mapIdx_cons, Text.joined_cons, List.append_assoc, List.cons_append,
      List.singleton_append,
      Text.physicalLines_append_returned _ ((margins 0).single_around single)]
    exact .cons ⟨margins 0, rfl⟩ (ih fun position => margins (position + 1))

/-! ## Outcomes -/

section Content

variable {before content behind : List Char} (beforeBlank : AllBlank before)
  (behindBlank : AllBlank behind)

theorem stripComment_blanks_append (blank : AllBlank before) (text : List Char) :
    Text.stripComment (before ++ text) = before ++ Text.stripComment text := by
  induction before with
  | nil => rfl
  | cons char blanks ih =>
    have charBlank : isBlank char = true := blank char List.mem_cons_self
    rw [List.cons_append, Text.stripComment, ih fun other member =>
      blank other (List.mem_cons_of_mem _ member)]
    · rfl
    · rintro rfl
      exact absurd charBlank (by decide)
    · rintro _ rfl
      exact absurd charBlank (by decide)

/-- What is behind a line is a part of its comment, or it is content as it would be alone. -/
theorem stripComment_append (line : List Char) {tail : List Char}
    (notSlash : tail.head? ≠ some '/') :
    Text.stripComment (line ++ tail) = Text.stripComment line ∨
      Text.stripComment (line ++ tail) = Text.stripComment line ++ Text.stripComment tail := by
  fun_induction Text.stripComment line with
  | case1 => exact .inr rfl
  | case2 rest => exact .inl rfl
  | case3 rest => exact .inl rfl
  | case4 char rest notHash notSlashes ih =>
    have kept : Text.stripComment (char :: rest ++ tail) =
        char :: Text.stripComment (rest ++ tail) := by
      rw [List.cons_append, Text.stripComment]
      · exact notHash
      · intro others isSlash begins
        rcases List.append_eq_cons_iff.mp begins with ⟨rfl, isTail⟩ | ⟨further, rfl, _⟩
        · exact notSlash (by rw [isTail]; rfl)
        · exact notSlashes further isSlash rfl
    rw [kept]
    rcases ih with same | same
    · exact .inl (congrArg (List.cons char) same)
    · exact .inr (congrArg (List.cons char) same)

theorem exists_stripComment_around (margin : Margin) (line : List Char) :
    ∃ behind, AllBlank behind ∧ Text.stripComment (margin.around line) =
      margin.before ++ (Text.stripComment line ++ behind) := by
  have bare : Text.stripComment margin.comment = [] := by
    unfold Margin.comment
    cases margin.remark <;> rfl
  have notSlash : (margin.after ++ margin.comment).head? ≠ some '/' := by
    cases blanks : margin.after with
    | nil =>
      unfold Margin.comment
      cases margin.remark <;> simp
    | cons char rest =>
      intro begins
      have charBlank := margin.afterBlank char (by simp [blanks])
      rw [Option.some.inj begins] at charBlank
      exact absurd charBlank (by decide)
  rw [Margin.around, stripComment_blanks_append margin.beforeBlank]
  rcases stripComment_append line notSlash with same | same
  · exact ⟨[], allBlank_nil, by rw [same, List.append_nil]⟩
  · rw [stripComment_blanks_append margin.afterBlank, bare, List.append_nil] at same
    exact ⟨margin.after, margin.afterBlank, by rw [same]⟩

include beforeBlank

theorem readStatement_blanks_append (line : List Char) :
    readStatement (before ++ line) = readStatement line := by
  have skipped := skipBlanks_append_of_blank beforeBlank line
  simp only [readStatement, readConditions, readConstraint, readFacet, skipped]

include behindBlank

theorem isBlankLine_within :
    Text.isBlankLine (before ++ (content ++ behind)) = Text.isBlankLine content := by
  simp only [Text.isBlankLine, List.all_append, List.all_eq_true.mpr beforeBlank.space,
    List.all_eq_true.mpr behindBlank.space, Bool.true_and, Bool.and_true]

theorem parseStatement_within (number : UInt32) :
    parseStatement number (before ++ (content ++ behind)) = parseStatement number content := by
  rw [parseStatement, parseStatement, readStatement_blanks_append beforeBlank]
  rcases readStatement_append_of_blank content behindBlank with ⟨statement, read, readBehind⟩ |
    ⟨fault, rest, blanks, stopped, stoppedBehind, blank⟩
  · rw [read, readBehind]
  · rw [stopped, stoppedBehind]
    simp only [tokenAt_append_blanks blank]

theorem spellingIn_within {keyword : String} (nonempty : keyword.toList ≠ []) (letter : Char) :
    spellingIn (before ++ (content ++ behind)) keyword letter =
      spellingIn content keyword letter := by
  have bounds {blanks : List Char} (blank : AllBlank blanks) :
      ∀ char ∈ blanks, endsKeyword char = true :=
    fun char member => endsKeyword_of_isBlank (blank char member)
  have same : keyword.toList ∈ Text.pieces endsKeyword (before ++ (content ++ behind)) ↔
      keyword.toList ∈ Text.pieces endsKeyword content := by
    rw [Text.mem_pieces_boundaries_append (bounds beforeBlank) nonempty,
      Text.mem_pieces_append_boundaries (bounds behindBlank) nonempty]
  rw [← List.contains_iff_mem, ← List.contains_iff_mem, ← Bool.eq_iff_iff] at same
  unfold endsKeyword at same
  rw [spellingIn, spellingIn, same]

theorem draftOfStatement_within (number : UInt32) (statement : Statement) :
    draftOfStatement number (before ++ (content ++ behind)) statement =
      draftOfStatement number content statement := by
  -- A repetition is reported by a spelling, and that is searched for in the whole line.
  have facetSpelling (facet : Facet) : spellingIn (before ++ (content ++ behind)) facet.keyword
      facet.letter = spellingIn content facet.keyword facet.letter :=
    spellingIn_within beforeBlank behindBlank ((Keyword.ofFacet facet).isId_spelling true).1.1 _
  have kindSpelling (kind : PolicyKind) : spellingIn (before ++ (content ++ behind)) kind.keyword
      kind.letter = spellingIn content kind.keyword kind.letter :=
    spellingIn_within beforeBlank behindBlank ((Keyword.ofKind kind).isId_spelling true).1.1 _
  cases statement with
  | fallback assignments => simp only [draftOfStatement, collectPolicies, kindSpelling]
  | rule constraints assignments =>
    simp only [draftOfStatement, collectConditions, collectPolicies, facetSpelling, kindSpelling]

end Content

theorem draftOfLine_of_within {line other : List Char} (within : Within line other)
    (number : UInt32) : draftOfLine number other = draftOfLine number line := by
  obtain ⟨margin, rfl⟩ := within
  obtain ⟨behind, blank, content⟩ := exists_stripComment_around margin line
  simp only [draftOfLine, content, isBlankLine_within margin.beforeBlank blank,
    parseStatement_within margin.beforeBlank blank,
    draftOfStatement_within margin.beforeBlank blank]

theorem draftOfLines_of_within {lines others : List (List Char)}
    (within : List.Forall₂ Within lines others) (number : Nat) :
    draftOfLines number others = draftOfLines number lines := by
  induction within generalizing number with
  | nil => rfl
  | cons here _ ih => rw [draftOfLines, draftOfLines, draftOfLine_of_within here, ih]

/-- Neither margins around the lines of a text nor the form of its line endings change what it says
or what is wrong with it. -/
theorem parse_layOut :
    (∀ (margins : Nat → Margin) (text : String), parse (layOut margins text) = parse text) ∧
      ∀ text : String, '\r' ∉ text.toList →
        parse (.ofList (Text.withReturns text.toList)) = parse text := by
  constructor
  · intro margins text
    have within := within_physicalLines_joined (Text.divided_endedLines text.toList) margins
    rw [Text.map_fst_endedLines] at within
    rw [parse, layOut, String.toList_ofList, draftOfLines_of_within within, parse]
  · intro text noReturn
    rw [parse, parse, String.toList_ofList, Text.physicalLines_withReturns noReturn]

/-- A text whose second line constrains a facet again. -/
def againText : String :=
  "m book: l p\nm x + item-type y: r q"

/-- Blanks around the first line, and a comment behind the others. -/
def sampleMargin (position : Nat) : Margin :=
  if position = 0 then
    ⟨['\t'], [' ', '\t'], none, by simp [AllBlank, isBlank], by simp [AllBlank, isBlank], by simp⟩
  else
    ⟨[], [], some "item-type // m".toList, allBlank_nil, allBlank_nil, by simp⟩

theorem parse_layOut_againText :
    layOut sampleMargin againText =
      "\tm book: l p \t\nm x + item-type y: r q#item-type // m" ∧
      parse "\tm book: l p \t\nm x + item-type y: r q#item-type // m" =
        .error ⟨2, "item-type", .repeatedFacet .itemType⟩ ∧
      '\r' ∉ againText.toList ∧
      parse "m book: l p\r\nm x + item-type y: r q" =
        .error ⟨2, "item-type", .repeatedFacet .itemType⟩ := by
  have failed : parse againText = .error ⟨2, "item-type", .repeatedFacet .itemType⟩ := by
    decide +kernel
  have laidOut : layOut sampleMargin againText =
      "\tm book: l p \t\nm x + item-type y: r q#item-type // m" := by decide +kernel
  have noReturn : '\r' ∉ againText.toList := by decide
  have returned : String.ofList (Text.withReturns againText.toList) =
      "m book: l p\r\nm x + item-type y: r q" := by decide +kernel
  refine ⟨laidOut, ?_, noReturn, ?_⟩
  · rw [← laidOut, parse_layOut.1 sampleMargin againText, failed]
  · rw [← returned, parse_layOut.2 againText noReturn, failed]

end RuleText

end Circulation
