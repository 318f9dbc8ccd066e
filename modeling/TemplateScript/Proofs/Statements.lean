import TemplateScript.Preset
import TemplateScript.Proofs.Rendering

namespace TemplateScript

/-!
# What the statements of a script write

A template without directives becomes a row of output statements, each with the
body of a quoted string in it.  Running the script reads the bodies back.  The
scan marks quotes and newlines with a backslash, but it does not mark a backslash
of the template itself.  So the text comes back exactly if it has no backslash;
in any other text a backslash takes the next character with it, which may be the
quote that was to end the string.
-/

/-! ## Reading the body of a quoted string -/

/-- What the character behind a backslash stands for.  Only three of these
escapes are prescribed, and no other one may stand for a backslash. -/
structure Escapes where
  meaning : Char → Option Char
  newline : meaning 'n' = some '\n'
  quote : meaning '"' = some '"'
  backslash : ∀ c, meaning c = some '\\' ↔ c = '\\'

namespace Escapes

/-- The prescribed escapes and no others. -/
def least : Escapes where
  meaning c := if c = 'n' then some '\n' else if c = '"' ∨ c = '\\' then some c else none
  newline := rfl
  quote := rfl
  backslash c := by grind

/-- The text that a body stands for.  There is none if a quote in the body ends
the string early, or if a last backslash takes the quote behind the body. -/
def decode (e : Escapes) : List Char → Option (List Char)
  | [] => some []
  | '\\' :: c :: rest => (e.meaning c).bind fun d => (e.decode rest).map (d :: ·)
  | c :: rest => if c = '\\' ∨ c = '"' then none else (e.decode rest).map (c :: ·)

theorem decode_escape (e : Escapes) (c : Char) (rest : List Char) :
    e.decode ('\\' :: c :: rest) = (e.meaning c).bind fun d => (e.decode rest).map (d :: ·) := by
  rw [decode]

theorem decode_plain (e : Escapes) {c : Char} (noBackslash : c ≠ '\\') (noQuote : c ≠ '"')
    (rest : List Char) : e.decode (c :: rest) = (e.decode rest).map (c :: ·) := by
  rw [decode, if_neg (not_or.mpr ⟨noBackslash, noQuote⟩)]
  intro d tail same
  exact absurd same noBackslash

end Escapes

namespace Wrappers

/-- The output statement with a given body. -/
def output (w : Wrappers) (body : List Char) : List Char :=
  w.outputStart.toList ++ body ++ w.outputEnd.toList

end Wrappers

/-- The script is a row of output statements whose bodies, read one after the
other, are the text. -/
def Escapes.Writes (e : Escapes) (w : Wrappers) (script text : List Char) : Prop :=
  ∃ bodies texts : List (List Char), script = bodies.flatMap w.output ∧
    bodies.map e.decode = texts.map some ∧ texts.flatten = text

/-! ## The statements of a literal text -/

namespace Literal

/-- A text cut behind every newline. -/
def lines : List Char → List (List Char)
  | [] => [[]]
  | c :: text => if c = '\n' then [c] :: lines text else (lines text).modifyHead (c :: ·)

/-- A character in the body of a statement. -/
def mark (c : Char) : List Char :=
  if c = '"' then ['\\', '"'] else if c = '\n' then ['\\', 'n'] else [c]

theorem exists_lines_eq_cons (text : List Char) : ∃ line rest, lines text = line :: rest := by
  induction text with
  | nil => exact ⟨[], [], rfl⟩
  | cons c text ih =>
    rcases ih with ⟨line, rest, split⟩
    rw [lines, split]
    split
    · exact ⟨_, _, rfl⟩
    · exact ⟨_, _, rfl⟩

theorem flatten_lines (text : List Char) : (lines text).flatten = text := by
  induction text with
  | nil => rfl
  | cons c text ih =>
    rcases exists_lines_eq_cons text with ⟨line, rest, split⟩
    rw [split] at ih
    rw [lines, split]
    split
    · rw [List.flatten_cons, ih, List.singleton_append]
    · rw [List.modifyHead_cons, List.flatten_cons, List.cons_append, ← List.flatten_cons, ih]

theorem length_lines (text : List Char) : (lines text).length = text.count '\n' + 1 := by
  induction text with
  | nil => rfl
  | cons c text ih =>
    rw [lines]
    split
    case isTrue newline =>
      rw [newline, List.count_cons_self, List.length_cons, ih]
    case isFalse other =>
      rw [List.length_modifyHead, List.count_cons_of_ne other, ih]

/-- The newlines split the statement of a text into one for each line. -/
theorem output_escape (w : Wrappers) (text : List Char) :
    w.output (text.flatMap (escape w)) =
      (lines text).flatMap fun line => w.output (line.flatMap mark) := by
  induction text with
  | nil => simp [lines, Wrappers.output]
  | cons c text ih =>
    rcases exists_lines_eq_cons text with ⟨line, rest, split⟩
    rw [split] at ih
    simp only [Wrappers.output, List.flatMap_cons, List.append_assoc,
      List.append_cancel_left_eq] at ih
    rw [lines, split]
    by_cases newline : c = '\n'
    · subst newline
      simp [Wrappers.output, escape, mark, ih]
    · by_cases quote : c = '"'
      · subst quote
        simp [Wrappers.output, escape, mark, ih]
      · simp [Wrappers.output, escape, mark, newline, quote, ih]

theorem decode_mark (e : Escapes) {text : List Char} (plain : '\\' ∉ text) :
    e.decode (text.flatMap mark) = some text := by
  induction text with
  | nil => rw [List.flatMap_nil, Escapes.decode]
  | cons c text ih =>
    rcases not_or.mp (List.mem_cons.not.mp plain) with ⟨other, later⟩
    rw [List.flatMap_cons, mark]
    split
    case isTrue quote =>
      subst quote
      simp [Escapes.decode_escape, e.quote, ih later]
    case isFalse noQuote =>
      split
      case isTrue newline =>
        subst newline
        simp [Escapes.decode_escape, e.newline, ih later]
      case isFalse noNewline =>
        simp [e.decode_plain (Ne.symm other) noQuote, ih later]

end Literal

/-! ## Counting what was marked -/

theorem Wrappers.count_flatMap_output (w : Wrappers) (c : Char) (bodies : List (List Char)) :
    (bodies.flatMap w.output).count c =
      bodies.length * (w.output []).count c + bodies.flatten.count c := by
  induction bodies with
  | nil => simp
  | cons body bodies ih =>
    simp only [List.flatMap_cons, List.count_append, ih, output, List.append_nil,
      List.length_cons, List.flatten_cons, Nat.succ_mul]
    omega

namespace Literal

theorem count_quote_mark (text : List Char) :
    (text.flatMap mark).count '"' = text.count '"' := by
  induction text with
  | nil => rfl
  | cons c text ih =>
    rw [List.flatMap_cons, List.count_append, ih, mark]
    grind

theorem count_newline_mark (text : List Char) : (text.flatMap mark).count '\n' = 0 := by
  induction text with
  | nil => rfl
  | cons c text ih =>
    rw [List.flatMap_cons, List.count_append, ih, mark]
    grind

theorem count_backslash_mark (text : List Char) :
    (text.flatMap mark).count '\\' = text.count '\\' + text.count '"' + text.count '\n' := by
  induction text with
  | nil => rfl
  | cons c text ih =>
    rw [List.flatMap_cons, List.count_append, ih, mark]
    grind

end Literal

namespace Escapes

/-- Every quote of a body is an escaped one. -/
theorem count_quote_le {e : Escapes} {body text : List Char} (read : e.decode body = some text) :
    body.count '"' ≤ text.count '"' := by
  fun_induction decode e body generalizing text with
  | case1 =>
    cases read
    exact Nat.le_refl _
  | case2 c rest ih =>
    rcases Option.bind_eq_some_iff.mp read with ⟨d, meaning, tail⟩
    rcases Option.map_eq_some_iff.mp tail with ⟨later, readLater, rfl⟩
    have fewer := ih readLater
    have quoted := e.quote
    grind
  | case3 c rest _ ends => cases read
  | case4 c rest _ plain ih =>
    rcases Option.map_eq_some_iff.mp read with ⟨later, readLater, rfl⟩
    have fewer := ih readLater
    grind

/-- Every backslash of the text costs two, and a quote or newline costs one
unless the newline stands in the body as it is. -/
theorem count_le_backslash {e : Escapes} {body text : List Char}
    (read : e.decode body = some text) :
    2 * text.count '\\' + text.count '"' + text.count '\n' ≤
      body.count '\\' + body.count '\n' := by
  fun_induction decode e body generalizing text with
  | case1 =>
    cases read
    exact Nat.le_refl _
  | case2 c rest ih =>
    rcases Option.bind_eq_some_iff.mp read with ⟨d, meaning, tail⟩
    rcases Option.map_eq_some_iff.mp tail with ⟨later, readLater, rfl⟩
    have fewer := ih readLater
    -- Only an escaped backslash, which is two, stands for one.
    have doubled := e.backslash c
    grind
  | case3 c rest _ ends => cases read
  | case4 c rest _ plain ih =>
    rcases Option.map_eq_some_iff.mp read with ⟨later, readLater, rfl⟩
    have fewer := ih readLater
    grind

/-- Bodies that can be read one by one can be read in one piece. -/
theorem decode_append {e : Escapes} {first second text more : List Char}
    (read : e.decode first = some text) (readMore : e.decode second = some more) :
    e.decode (first ++ second) = some (text ++ more) := by
  fun_induction decode e first generalizing text with
  | case1 =>
    cases read
    exact readMore
  | case2 c rest ih =>
    rcases Option.bind_eq_some_iff.mp read with ⟨d, meaning, tail⟩
    rcases Option.map_eq_some_iff.mp tail with ⟨later, readLater, rfl⟩
    simp [decode_escape, meaning, ih readLater]
  | case3 c rest _ ends => cases read
  | case4 c rest _ plain ih =>
    rcases Option.map_eq_some_iff.mp read with ⟨later, readLater, rfl⟩
    rcases not_or.mp plain with ⟨noBackslash, noQuote⟩
    simp [e.decode_plain noBackslash noQuote, ih readLater]

theorem decode_flatten {e : Escapes} {bodies texts : List (List Char)}
    (read : bodies.map e.decode = texts.map some) :
    e.decode bodies.flatten = some texts.flatten := by
  induction bodies generalizing texts with
  | nil =>
    cases texts with
    | nil => rw [List.flatten_nil, decode]
    | cons text texts => cases read
  | cons body bodies ih =>
    cases texts with
    | nil => cases read
    | cons text texts =>
      rcases List.cons.inj read with ⟨first, others⟩
      rw [List.flatten_cons, List.flatten_cons]
      exact decode_append first (ih others)

end Escapes

/-! ## The texts that are written out -/

namespace Wrappers

/-- Wrappers that put the output into a quoted string, and that hold no
backslash themselves. -/
structure Quoting (w : Wrappers) : Prop where
  quoted : '"' ∈ w.output []
  plain : '\\' ∉ w.output []

theorem quoting_of_mem {p : Preset} (among : p ∈ [Preset.print, Preset.embeddedJavaScript]) :
    p.wrappers.Quoting := by
  rcases List.mem_pair.mp among with rfl | rfl
  · exact ⟨by decide, by decide⟩
  · exact ⟨by decide, by decide⟩

end Wrappers

namespace Literal

theorem writes_of_plain (e : Escapes) (w : Wrappers) {text : List Char} (plain : '\\' ∉ text) :
    e.Writes w (w.output (text.flatMap (escape w))) text := by
  refine ⟨(lines text).map (·.flatMap mark), lines text, ?_, ?_, flatten_lines text⟩
  · rw [output_escape, List.flatMap_map]
  · rw [List.map_map]
    apply List.map_congr_left
    intro line among
    apply decode_mark
    intro backslash
    apply plain
    rw [← flatten_lines text]
    exact List.mem_flatten_of_mem among backslash

theorem count_output_escape (w : Wrappers) (c : Char) (text : List Char) :
    (w.output (text.flatMap (escape w))).count c =
      (text.count '\n' + 1) * (w.output []).count c + (text.flatMap mark).count c := by
  have bodies : ((lines text).map (·.flatMap mark)).flatten = text.flatMap mark := by
    rw [← List.flatMap_def, ← List.flatMap_assoc, List.flatMap_id', flatten_lines]
  rw [output_escape, ← List.flatMap_map, w.count_flatMap_output, List.length_map, length_lines,
    bodies]

/-- The quotes tell that there are at least as many statements as lines, so
the newlines of the script are all used up between the bodies.  Then the backslashes
are too few to write one. -/
theorem plain_of_writes {e : Escapes} {w : Wrappers} (quoting : w.Quoting) {text : List Char}
    (writes : e.Writes w (w.output (text.flatMap (escape w))) text) : '\\' ∉ text := by
  rcases writes with ⟨bodies, texts, split, read, rfl⟩
  have readAll := Escapes.decode_flatten read
  have fewQuotes := Escapes.count_quote_le readAll
  have enoughBackslashes := Escapes.count_le_backslash readAll
  -- The script is counted by its lines and by the bodies it is read as.
  have counts (c : Char) := (count_output_escape w c texts.flatten).symm.trans
    (split ▸ w.count_flatMap_output c bodies)
  have quotes := counts '"'
  have newlines := counts '\n'
  have backslashes := counts '\\'
  rw [count_quote_mark] at quotes
  rw [count_newline_mark] at newlines
  rw [count_backslash_mark, List.count_eq_zero.mpr quoting.plain] at backslashes
  have enough : texts.flatten.count '\n' + 1 ≤ bodies.length :=
    Nat.le_of_mul_le_mul_right (by omega) (List.count_pos_iff.mpr quoting.quoted)
  have noNewline : bodies.flatten.count '\n' = 0 := by
    have used := Nat.mul_le_mul_right ((w.output []).count '\n') enough
    omega
  apply List.count_eq_zero.mp
  omega

end Literal

namespace Wrappers

open Scan

theorem transpile_literal (w : Wrappers) {text : List Char}
    (unopened : ¬ opener <:+: normalize text) :
    (w.transpile text).result =
      .ok (String.ofList (w.output ((normalize text).flatMap (Literal.escape w)))) := by
  have source := Template.source_nil ⟨normalize text, unopened⟩
  rw [w.transpile_source source]
  simp [Template.script, Template.opening, Literal.statement, output]

/-- A text without directives becomes a row of output statements.  Running them
writes the text out exactly if the text has no backslash. -/
theorem literal_written_iff (e : Escapes) (p : Preset)
    (among : p ∈ [Preset.print, Preset.embeddedJavaScript]) (text : List Char)
    (unopened : ¬ opener <:+: normalize text) :
    ∃ bodies : List (List Char),
      (p.wrappers.transpile text).result =
        .ok (String.ofList (bodies.flatMap p.wrappers.output)) ∧
      (e.Writes p.wrappers (bodies.flatMap p.wrappers.output) (normalize text) ↔
        '\\' ∉ normalize text) := by
  refine ⟨(Literal.lines (normalize text)).map (·.flatMap Literal.mark), ?_⟩
  rw [List.flatMap_map, ← Literal.output_escape]
  exact ⟨p.wrappers.transpile_literal unopened, Literal.plain_of_writes (quoting_of_mem among),
    Literal.writes_of_plain e p.wrappers⟩

theorem literal_written_quotes_and_lines :
    let text := "say \"n\"\r\n<".toList
    Preset.print ∈ [Preset.print, Preset.embeddedJavaScript] ∧ ¬ opener <:+: normalize text ∧
      ∃ bodies : List (List Char),
        (Preset.print.wrappers.transpile text).result =
          .ok (String.ofList (bodies.flatMap Preset.print.wrappers.output)) ∧
        Escapes.least.Writes Preset.print.wrappers
          (bodies.flatMap Preset.print.wrappers.output) (normalize text) := by
  intro text
  have among : Preset.print ∈ [Preset.print, Preset.embeddedJavaScript] := by decide
  have unopened : ¬ opener <:+: normalize text := by decide
  rcases literal_written_iff Escapes.least Preset.print among text unopened with
    ⟨bodies, script, written⟩
  exact ⟨among, unopened, bodies, script, written.mpr (by decide)⟩

/-- The statement of a single backslash takes its own closing quote. -/
theorem backslash_not_written :
    (Preset.print.wrappers.transpile ['\\']).result = .ok "print(\"\\\");\n" ∧
      ∀ e : Escapes, ¬ e.Writes Preset.print.wrappers "print(\"\\\");\n".toList ['\\'] := by
  have script : "print(\"\\\");\n".toList =
      Preset.print.wrappers.output (['\\'].flatMap (Literal.escape Preset.print.wrappers)) := by
    decide
  constructor
  · rw [Preset.print.wrappers.transpile_literal (by decide)]
    rfl
  · intro e writes
    rw [script] at writes
    exact Literal.plain_of_writes (quoting_of_mem (by decide)) writes List.mem_cons_self

end Wrappers

end TemplateScript
