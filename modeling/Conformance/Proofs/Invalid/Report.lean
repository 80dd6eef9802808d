import Conformance.Invalid
import Mathlib.Data.List.SplitBy

/-! # Reading the text of an aggregate

The summary of an aggregate stands on the first line. Every failure begins a line with a bullet, and
its further lines are set below the first, so a bullet in the first column begins a failure whatever
the messages hold and however deep their causes go. Hence the text tells the summary and every
message.
-/

namespace Conformance

namespace Report

def bullet : List Char := ['-', '-', ' ']

def margin : List Char := [' ', ' ', ' ']

def lines (text : String) : List (List Char) := text.toList.splitOn '\n'

def firstLine (text : String) : List Char := (lines text).headD []

def isBulleted (line : List Char) : Bool := bullet.isPrefixOf line

/-! ## A reader -/

/-- The first line ends with a colon, which is not part of the summary. -/
def readSummary (text : String) : String := String.ofList (firstLine text).dropLast

/-- The lines after the first, in groups that begin with a bullet each. -/
def blocks (text : String) : List (List (List Char)) :=
  (lines text).tail.splitBy fun _ line => !isBulleted line

/-- Bullet and margin are of one width. -/
def readBlock (block : List (List Char)) : String :=
  String.ofList (['\n'].intercalate (block.map (List.drop 3)))

def readMessages (text : String) : List String := (blocks text).map readBlock

/-! ## The lines of a failure -/

theorem splitOn_append_of_not_mem {front : List Char} (h : '\n' ∉ front) (cs : List Char) :
    (front ++ cs).splitOn '\n' = (cs.splitOn '\n').modifyHead (front ++ ·) := by
  induction front with
  | nil =>
    rw [List.nil_append]
    cases cs.splitOn '\n' <;> rfl
  | cons c rest ih =>
    obtain ⟨hc, hrest⟩ := List.ne_and_not_mem_of_not_mem_cons h
    have hbeq : ¬ ((c == '\n') = true) := fun hc' => hc (eq_of_beq hc').symm
    rw [List.cons_append, List.splitOn_cons_eq_if_modifyHead, if_neg hbeq, ih hrest,
      List.modifyHead_modifyHead]
    rfl

def below : List (List Char) → List (List Char)
  | [] => []
  | line :: rest => line :: rest.map (margin ++ ·)

theorem splitOn_indent (cs : List Char) :
    (indent cs).splitOn '\n' = below (cs.splitOn '\n') := by
  induction cs with
  | nil => rfl
  | cons c rest ih =>
    obtain ⟨line, more, hlines⟩ := List.exists_cons_of_ne_nil (List.splitOn_ne_nil '\n' rest)
    rw [indent, List.splitOn_cons_eq_if_modifyHead]
    by_cases hc : c = '\n'
    · have hmargin : '\n' ∉ margin := by decide
      have hindent : '\n' :: ' ' :: ' ' :: ' ' :: indent rest =
          '\n' :: (margin ++ indent rest) := rfl
      subst hc
      rw [if_pos rfl, hindent, List.splitOn_cons_eq_if_modifyHead,
        splitOn_append_of_not_mem hmargin, ih, hlines]
      rfl
    · have hbeq : ¬ ((c == '\n') = true) := fun hc' => hc (eq_of_beq hc')
      rw [if_neg hc, if_neg hbeq, List.splitOn_cons_eq_if_modifyHead, if_neg hbeq, ih, hlines]
      rfl

def block (message : String) : List (List Char) := (below (lines message)).modifyHead (bullet ++ ·)

theorem exists_block (message : String) : ∃ rest, lines message = firstLine message :: rest ∧
    block message = (bullet ++ firstLine message) :: rest.map (margin ++ ·) := by
  obtain ⟨line, rest, hlines⟩ :=
    List.exists_cons_of_ne_nil (List.splitOn_ne_nil '\n' message.toList)
  have hfirst : firstLine message = line := by
    rw [firstLine, lines, hlines]
    rfl
  refine ⟨rest, ?_, ?_⟩
  · rw [hfirst, lines, hlines]
  · rw [hfirst, block, lines, hlines]
    rfl

theorem isBulleted_bullet (line : List Char) : isBulleted (bullet ++ line) = true :=
  List.isPrefixOf_iff_prefix.mpr (List.prefix_append bullet line)

theorem isBulleted_margin (line : List Char) : isBulleted (margin ++ line) = false := rfl

theorem block_ne_nil (message : String) : block message ≠ [] := by
  obtain ⟨rest, -, hblock⟩ := exists_block message
  rw [hblock]
  exact List.cons_ne_nil _ _

theorem isBulleted_head_block (message : String) :
    isBulleted ((block message).head (block_ne_nil message)) = true := by
  obtain ⟨rest, -, hblock⟩ := exists_block message
  simp only [hblock, List.head_cons, isBulleted_bullet]

theorem splitOn_entry (message : String) :
    (bullet ++ indent message.toList).splitOn '\n' = block message := by
  have hbullet : '\n' ∉ bullet := by decide
  rw [splitOn_append_of_not_mem hbullet, splitOn_indent]
  rfl

theorem readBlock_block (message : String) : readBlock (block message) = message := by
  obtain ⟨rest, hlines, hblock⟩ := exists_block message
  have hdrop : (block message).map (List.drop 3) = lines message := by
    rw [hblock, hlines, List.map_cons, List.map_map]
    exact congrArg (firstLine message :: ·) (List.map_id rest)
  rw [readBlock, hdrop, lines, List.intercalate_splitOn, String.ofList_toList]

/-- Of the lines of a failure just the first has a bullet. -/
theorem filter_block (message : String) :
    (block message).filter isBulleted = [bullet ++ firstLine message] := by
  obtain ⟨rest, -, hblock⟩ := exists_block message
  have hrest : (rest.map (margin ++ ·)).filter isBulleted = [] := by
    rw [List.filter_eq_nil_iff]
    intro line hline
    obtain ⟨line', -, rfl⟩ := List.mem_map.mp hline
    exact Bool.eq_false_iff.mp (isBulleted_margin line')
  rw [hblock, List.filter_cons_of_pos (isBulleted_bullet _), hrest]

/-! ## The lines of an aggregate -/

theorem splitOn_entries (front : List Char) (messages : List String) :
    (front ++ messages.flatMap fun m => '\n' :: (bullet ++ indent m.toList)).splitOn '\n' =
      front.splitOn '\n' ++ messages.flatMap block := by
  induction messages generalizing front with
  | nil => rw [List.flatMap_nil, List.flatMap_nil, List.append_nil, List.append_nil]
  | cons m rest ih =>
    rw [List.flatMap_cons, List.flatMap_cons, List.cons_append, List.splitOn_append_cons_self, ih,
      splitOn_entry]

/-- The groups of lines that begin with a bullet are the blocks of the failures. -/
theorem splitBy_blocks (messages : List String) :
    (messages.flatMap block).splitBy (fun _ line => !isBulleted line) = messages.map block := by
  rw [List.flatMap_def]
  apply List.splitBy_flatten
  · intro hnil
    obtain ⟨m, -, hm⟩ := List.mem_map.mp hnil
    exact block_ne_nil m hm
  · intro ls hls
    obtain ⟨m, -, rfl⟩ := List.mem_map.mp hls
    obtain ⟨rest, -, hblock⟩ := exists_block m
    rw [hblock]
    -- Lines below the first have a margin, wherever in the block they stand.
    refine (List.pairwise_cons.mpr ⟨?_, ?_⟩ : List.Pairwise _ _).isChain
    · intro line hline
      obtain ⟨line', -, rfl⟩ := List.mem_map.mp hline
      rfl
    · exact List.pairwise_map.mpr (List.pairwise_of_forall fun _ _ => rfl)
  · refine (List.pairwise_map.mpr (List.pairwise_of_forall fun m m' => ?_)).isChain
    refine ⟨block_ne_nil m, block_ne_nil m', ?_⟩
    rw [isBulleted_head_block]
    rfl

end Report

open Report

theorem Failure.toList_bullet (f : Failure) :
    f.bullet.toList = '\n' :: (Report.bullet ++ indent f.message.toList) := by
  rw [bullet_eq, String.toList_append, String.toList_ofList (l := indent f.message.toList)]
  rfl

theorem toList_bullets (fs : List Failure) : (bullets fs).toList =
    (fs.map Failure.message).flatMap fun m => '\n' :: (bullet ++ indent m.toList) := by
  induction fs with
  | nil => rfl
  | cons f rest ih =>
    rw [bullets, String.toList_append, ih, f.toList_bullet, List.map_cons, List.flatMap_cons]

theorem Invalid.toList_render {e : Invalid} (h : e.isAggregate = true) : e.render.toList =
    (e.summary.toList ++ [':']) ++
      e.messages.flatMap fun m => '\n' :: (bullet ++ indent m.toList) := by
  cases e with
  | aggregate s first rest =>
    have hbullets : first.bullet ++ bullets rest = bullets (first :: rest) := rfl
    rw [render, String.append_assoc, hbullets, String.toList_append, String.toList_append,
      toList_bullets]
    rfl
  | _ => cases h

theorem Invalid.lines_render {e : Invalid} (h : e.isAggregate = true)
    (single : '\n' ∉ e.summary.toList) :
    lines e.render = (e.summary.toList ++ [':']) :: e.messages.flatMap block := by
  have hfirst : '\n' ∉ e.summary.toList ++ [':'] :=
    List.not_mem_append single (by decide)
  rw [lines, toList_render h, splitOn_entries, List.splitOn_eq_singleton hfirst]
  rfl

/-- The text of an aggregate whose summary is one line reads back as the summary and the messages of
its failures. After the first line just the lines that begin a failure have a bullet in the first
column. Two such aggregates have one text only if they have one summary and the same messages. -/
theorem aggregate_reads_back {e : Invalid} (aggregate : e.isAggregate = true)
    (single : '\n' ∉ e.summary.toList) :
    readSummary e.render = e.summary ∧
    readMessages e.render = e.messages ∧
    (lines e.render).tail.filter isBulleted = e.messages.map (fun m => bullet ++ firstLine m) ∧
    (lines e.render).tail.countP isBulleted = e.failures.length ∧
    ∀ f : Invalid, f.isAggregate = true → '\n' ∉ f.summary.toList →
      (e.render = f.render ↔ e.summary = f.summary ∧ e.messages = f.messages) := by
  have hsummary : ∀ f : Invalid, f.isAggregate = true → '\n' ∉ f.summary.toList →
      readSummary f.render = f.summary := by
    intro f hf hsingle
    rw [readSummary, firstLine, f.lines_render hf hsingle, List.headD_cons, List.dropLast_concat,
      String.ofList_toList]
  have hmessages : ∀ f : Invalid, f.isAggregate = true → '\n' ∉ f.summary.toList →
      readMessages f.render = f.messages := by
    intro f hf hsingle
    rw [readMessages, blocks, f.lines_render hf hsingle, List.tail_cons, splitBy_blocks,
      List.map_map]
    exact (List.map_congr_left fun m _ => readBlock_block m).trans (List.map_id _)
  have hbulleted : (lines e.render).tail.filter isBulleted =
      e.messages.map (fun m => bullet ++ firstLine m) := by
    rw [e.lines_render aggregate single, List.tail_cons, List.filter_flatMap,
      List.flatMap_congr fun m _ => filter_block m, List.map_eq_flatMap]
  refine ⟨hsummary e aggregate single, hmessages e aggregate single, hbulleted, ?_, ?_⟩
  · rw [List.countP_eq_length_filter, hbulleted, List.length_map, Invalid.messages, List.length_map]
  · intro f hf hsingle
    constructor
    · intro h
      constructor
      · rw [← hsummary e aggregate single, h, hsummary f hf hsingle]
      · rw [← hmessages e aggregate single, h, hmessages f hf hsingle]
    · rintro ⟨hs, hm⟩
      rw [← String.toList_inj, e.toList_render aggregate, f.toList_render hf, hs, hm]

/-- A message with a line that looks like a failure, and a failure with such a line in its cause. -/
def Report.delivery : Invalid :=
  .aggregate "Order refused" (.leaf none "see\n-- note")
    [.caused (some (.index 1)) "item" (.aggregate "box" (.leaf none "too\nheavy") [])]

theorem aggregate_reads_back_delivery :
    (delivery.isAggregate = true ∧ '\n' ∉ delivery.summary.toList) ∧
    delivery.render =
      "Order refused:\n-- see\n   -- note\n-- item: box:\n   -- too\n      heavy" ∧
    readMessages delivery.render = ["see\n-- note", "item: box:\n-- too\n   heavy"] := by
  have hsingle : '\n' ∉ delivery.summary.toList := by decide
  obtain ⟨-, hmessages, -⟩ := aggregate_reads_back rfl hsingle
  exact ⟨⟨rfl, hsingle⟩, by decide, hmessages.trans (by decide)⟩

end Conformance
