import TemplateScript.Proofs.Rendering

namespace TemplateScript

/-!
# What a scan reports

The log of a scan tells the directives of the template: one record for the
opening mark of each, in their order, and no record for a mark that stands inside
of a directive.  The last record of a successful scan tells the sizes of the
template and of the script, and that of a failed scan is the mark that was never
closed.

A failure tells the place of the `<` of a mark and a record the place of the `%`.
The scan keeps these two apart from each other, and it is a theorem that they
stand side by side.
-/

namespace Position

/-- The place behind a text, by the newlines in it and what follows the last one. -/
def behind (text : List Char) : Position :=
  ⟨1 + text.count '\n', 1 + (text.rtakeWhile fun c => c ≠ '\n').length⟩

theorem advanceAll_origin_eq_behind (text : List Char) :
    origin.advanceAll text = behind text := advanceAll_origin text

/-- The `%` of an opening mark stands in the column behind the `<`. -/
theorem behind_tag (text : List Char) :
    behind (text ++ ['<']) = ⟨(behind text).line, (behind text).column + 1⟩ := by
  rw [← advanceAll_origin_eq_behind, advanceAll_append, advanceAll_origin_eq_behind]
  rfl

end Position

namespace Template

/-- The template up to one of its directives. -/
def before (t : Template) (i : Nat) : Template := ⟨t.first, t.rest.take i⟩

/-- For each directive, the text before the `%` of its opening mark. -/
def beforeOpeners (t : Template) : List (List Char) :=
  (List.range t.rest.length).map fun i => (t.before i).source ++ ['<']

/-- There is a `%` behind each of these texts. -/
theorem prefix_of_mem_beforeOpeners {t : Template} {front : List Char}
    (among : front ∈ t.beforeOpeners) : front ++ ['%'] <+: t.source := by
  rcases List.mem_map.mp among with ⟨i, inRange, rfl⟩
  have bound : i < t.rest.length := List.mem_range.mp inRange
  have whole : t.source = (t.before i).source ++
      (t.rest.drop i).flatMap fun part => part.1.source ++ part.2.text := by
    rw [source, source, before, List.append_assoc, ← List.flatMap_append, List.take_append_drop]
  rw [whole, List.append_assoc, List.prefix_append_right_inj, List.drop_eq_getElem_cons bound]
  exact ⟨_, rfl⟩

end Template

namespace Scan
namespace Outline

theorem consumed_feedAll (p : Outline) (cs : List Char) :
    (p.feedAll cs).consumed = p.consumed + cs.length := by
  induction cs generalizing p with
  | nil => rfl
  | cons c cs ih =>
    rw [feedAll_cons, ih, List.length_cons]
    change p.consumed + 1 + cs.length = _
    omega

/-- A directive is noted once, whatever its body holds, and the literal text
behind it is not noted. -/
theorem openers_part (d : Directive) (l : Literal) {p : Outline}
    (inside : p.state.region? = some .literal) :
    (p.feedAll (d.source ++ l.text)).state.region? = some .literal ∧
      (p.feedAll (d.source ++ l.text)).openers = p.openers.push (p.position.advance '<') := by
  -- Up to its closing mark a directive is like one that is never closed.
  rcases feedAll_unclosed inside d.inside_unclosed with ⟨region, -, openers⟩
  have closes := feedAll_closer region (by split_ifs <;> exact Region.noConfusion)
  have stays := feedAll_literal l closes.state
  rw [Directive.source, feedAll_append, feedAll_append]
  refine ⟨stays.region, ?_⟩
  rw [stays.openers, closes.openers, openers]

theorem openers_parts (parts : List (Directive × Literal)) {p : Outline}
    (inside : p.state.region? = some .literal) :
    let q := p.feedAll (parts.flatMap fun part => part.1.source ++ part.2.text)
    q.state.region? = some .literal ∧
      q.openers.toList = p.openers.toList ++ (List.range parts.length).map fun i =>
        p.position.advanceAll
          (((parts.take i).flatMap fun part => part.1.source ++ part.2.text) ++ ['<']) := by
  intro q
  induction parts generalizing p with
  | nil => exact ⟨inside, (List.append_nil _).symm⟩
  | cons part parts ih =>
    rcases openers_part part.1 part.2 inside with ⟨region, openers⟩
    rcases ih region with ⟨finalRegion, rest⟩
    have split : q = (p.feedAll (part.1.source ++ part.2.text)).feedAll
        (parts.flatMap fun part => part.1.source ++ part.2.text) := feedAll_append ..
    rw [split]
    refine ⟨finalRegion, ?_⟩
    rw [rest, openers, position_feedAll, Array.toList_push, List.append_assoc, List.length_cons,
      List.range_succ_eq_map, List.map_cons, List.map_map]
    refine congrArg (p.openers.toList ++ ·) (congrArg (p.position.advance '<' :: ·) ?_)
    apply List.map_congr_left
    intro i _
    simp only [Function.comp_apply, List.take_succ_cons, List.flatMap_cons, List.append_assoc,
      Position.advanceAll_append]

theorem openers_source (t : Template) :
    (({} : Outline).feedAll t.source).state.region? = some .literal ∧
      (({} : Outline).feedAll t.source).openers.toList =
        t.beforeOpeners.map Position.behind := by
  rcases t with ⟨first, parts⟩
  have stays : Stays .literal {} (({} : Outline).feedAll first.text) first.text :=
    feedAll_stays rfl first.unopened State.noConfusion
  rcases openers_parts parts stays.region with ⟨region, openers⟩
  rw [Template.source, feedAll_append]
  refine ⟨region, ?_⟩
  rw [openers, stays.openers, position_feedAll, Template.beforeOpeners, List.map_map]
  apply List.map_congr_left
  intro i _
  rw [Function.comp_apply, ← Position.advanceAll_origin_eq_behind, Template.before,
    Template.source]
  simp only [Position.advanceAll_append]

/-- Where a text breaks off, the mark that was never closed is noted last. -/
theorem openers_breaksOff {t : Template} {rest text : List Char} (broken : t.BreaksOff rest text) :
    (({} : Outline).feedAll text).openers.toList =
      (t.beforeOpeners ++ [t.source ++ ['<']]).map Position.behind := by
  rcases broken with ⟨rfl, unclosed⟩
  rcases openers_source t with ⟨region, closed⟩
  rcases feedAll_unclosed region unclosed with ⟨-, -, openers⟩
  rw [List.append_assoc, feedAll_append, openers, Array.toList_push, closed, position_feedAll,
    List.map_append, List.map_singleton,
    ← Position.advanceAll_origin_eq_behind (t.source ++ ['<']), Position.advanceAll_append]
  rfl

end Outline
end Scan

theorem Utf8.length_encode_toList (text : String) :
    (encode text.toList).length = text.utf8ByteSize := by
  rw [← String.size_toByteArray, ← String.utf8Encode_toList, List.utf8Encode, List.size_toByteArray,
    encode]

namespace Wrappers

open Scan

theorem log_of_ok {w : Wrappers} {text : List Char} {script : String}
    (succeeds : (w.transpile text).result = .ok script) :
    (w.transpile text).log =
      (outline text).records ++ [.transpiled (outline text).consumed script.utf8ByteSize] := by
  rw [transpile_result] at succeeds
  rw [transpile, transpileDelivery_eq]
  simp only [Outline.outcome, succeeds]

theorem log_of_error {w : Wrappers} {text : List Char} {failure : Failure}
    (fails : (w.transpile text).result = .error failure) :
    (w.transpile text).log = (outline text).records := by
  rw [transpile_result] at fails
  rw [transpile, transpileDelivery_eq]
  simp only [Outline.outcome, fails]

/-- The log of a scan names the opening marks of the template's directives by the
places of their `%`, each once and in order.  If the text is a template, one more
record tells the number of its characters and the length of the script in bytes;
if it breaks off in a directive, the mark of that directive comes last, one column
behind the place of the failure. -/
theorem log_matches_directives (w : Wrappers) (text : List Char) :
    (∃ (t : Template) (script : String), t.source = text.filter (· ≠ '\r') ∧
        (∀ front ∈ t.beforeOpeners, front ++ ['%'] <+: text.filter (· ≠ '\r')) ∧
        (w.transpile text).result = .ok script ∧
        (w.transpile text).log =
          t.beforeOpeners.map (fun front => .directiveOpened (.behind front)) ++
            [.transpiled (text.filter (· ≠ '\r')).length (Utf8.encode script.toList).length]) ∨
      ∃ (t : Template) (rest : List Char) (reason : Malformation) (line column : Nat),
        t.BreaksOff rest (text.filter (· ≠ '\r')) ∧
        (∀ front ∈ t.beforeOpeners ++ [t.source ++ ['<']],
          front ++ ['%'] <+: text.filter (· ≠ '\r')) ∧
        (w.transpile text).result = .error (.malformedTemplate reason ⟨line, column⟩) ∧
        (w.transpile text).log = (t.beforeOpeners ++ [t.source ++ ['<']]).map
          (fun front => .directiveOpened (.behind front)) ∧
        (w.transpile text).log.getLast? = some (.directiveOpened ⟨line, column + 1⟩) := by
  rcases Template.exists_source_or_breaksOff (text.filter (· ≠ '\r')) with
    ⟨t, source⟩ | ⟨t, rest, broken⟩
  · have succeeds := w.transpile_source source
    refine .inl ⟨t, _, source, ?_, succeeds, ?_⟩
    · intro front among
      rw [← source]
      exact Template.prefix_of_mem_beforeOpeners among
    · rw [log_of_ok succeeds, Outline.records, outline, Outline.consumed_feedAll, Scan.normalize,
        ← source, (Outline.openers_source t).2, List.map_map, Utf8.length_encode_toList]
      change _ ++ [Log.Record.transpiled (0 + _) _] = _
      rw [Nat.zero_add]
      rfl
  · have fails := w.transpile_breaksOff broken
    have log : (w.transpile text).log = (t.beforeOpeners ++ [t.source ++ ['<']]).map
        (fun front => .directiveOpened (.behind front)) := by
      rw [log_of_error fails, Outline.records, outline, Scan.normalize,
        Outline.openers_breaksOff broken, List.map_map]
      rfl
    refine .inr ⟨t, rest, _, _, _, broken, ?_, fails, log, ?_⟩
    · intro front among
      rw [broken.1, List.append_assoc]
      rcases List.mem_append.mp among with closed | last
      · exact (Template.prefix_of_mem_beforeOpeners closed).trans (List.prefix_append _ _)
      · rw [List.mem_singleton.mp last, List.append_assoc, List.prefix_append_right_inj]
        exact List.prefix_append opener rest
    · rw [log, List.map_append, List.getLast?_append, List.map_singleton, List.getLast?_singleton,
        Position.behind_tag]
      rfl

end Wrappers

end TemplateScript
