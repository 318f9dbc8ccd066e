import TemplateScript.Proofs.Traces

namespace TemplateScript

/-!
# The items of a script

A script is a row of items: a text between the wrappers for output, a text
between the wrappers for expressions, or a character of code.  A scan writes the
parts of an item at different times.  An output item is opened by the closing
mark of a directive or by the first character of the template, it is split by
every newline, and it is closed by a `%` whose `<` was held back.

So the state alone has to tell which item is open, and it does: behind the
complete items there is nothing, or one opening wrapper and its text.  That is
what each step keeps, and at the end of a template nothing is left open.
-/

/-- A complete piece of a script. -/
inductive Item where
  | output (text : List Char)
  | expression (text : List Char)
  | code (c : Char)
  deriving DecidableEq

namespace Item

/-- The tokens of an item. -/
def tokens : Item → List Token
  | .output text => .slot .outputStart :: text.map .char ++ [.slot .outputEnd]
  | .expression text => .slot .exprStart :: text.map .char ++ [.slot .exprEnd]
  | .code c => [.char c]

/-- The tokens of a row of items. -/
def allTokens (items : List Item) : List Token := items.flatMap tokens

@[simp] theorem allTokens_append (front back : List Item) :
    allTokens (front ++ back) = allTokens front ++ allTokens back :=
  List.flatMap_append ..

@[simp] theorem allTokens_singleton (item : Item) : allTokens [item] = item.tokens :=
  List.flatMap_singleton ..

end Item

/-- Nothing is open behind the last item. -/
def Complete (written : List Token) : Prop :=
  ∃ items : List Item, written = Item.allTokens items

/-- One wrapper and its text are open behind complete items. -/
def OpenAt (slot : Slot) (written : List Token) : Prop :=
  ∃ (items : List Item) (text : List Char),
    written = Item.allTokens items ++ .slot slot :: text.map .char

theorem Complete.nil : Complete [] := ⟨[], rfl⟩

theorem Complete.item {written : List Token} (complete : Complete written) (item : Item) :
    Complete (written ++ item.tokens) := by
  rcases complete with ⟨items, rfl⟩
  refine ⟨items ++ [item], ?_⟩
  rw [Item.allTokens_append, Item.allTokens_singleton]

theorem Complete.opening {written : List Token} (complete : Complete written) (slot : Slot) :
    OpenAt slot (written ++ [.slot slot]) := by
  rcases complete with ⟨items, rfl⟩
  exact ⟨items, [], rfl⟩

namespace OpenAt

variable {slot : Slot} {written : List Token}

theorem char (opened : OpenAt slot written) (c : Char) : OpenAt slot (written ++ [.char c]) := by
  rcases opened with ⟨items, text, rfl⟩
  refine ⟨items, text ++ [c], ?_⟩
  simp

theorem exists_output (opened : OpenAt .outputStart written) :
    ∃ (items : List Item) (text : List Char),
      written ++ [.slot .outputEnd] = Item.allTokens (items ++ [.output text]) := by
  rcases opened with ⟨items, text, rfl⟩
  refine ⟨items, text, ?_⟩
  simp [Item.tokens]

theorem closeOutput (opened : OpenAt .outputStart written) :
    Complete (written ++ [.slot .outputEnd]) := by
  rcases opened.exists_output with ⟨items, text, same⟩
  exact ⟨_, same⟩

theorem closeExpression (opened : OpenAt .exprStart written) :
    Complete (written ++ [.slot .exprEnd]) := by
  rcases opened with ⟨items, text, rfl⟩
  refine ⟨items ++ [.expression text], ?_⟩
  simp [Item.tokens]

end OpenAt

namespace Scan

/-! ## What a state admits as written -/

/-- What may have been written when a state is reached. -/
def State.Admits : State → List Token → Prop
  | .start, written | .firstTagPending, written => written = []
  | .literal, written | .tagPending, written => OpenAt .outputStart written
  | .directiveOpened, written | .code, written | .codeClosePending, written => Complete written
  | .expression, written | .expressionClosePending, written => OpenAt .exprStart written
  | .invalid, _ => False

/-- A move from something written to what the next state admits. -/
def Move.Keeps (m : Move) (written : List Token) : Prop :=
  m.next.Admits (written ++ m.written)

theorem Move.Keeps.writingFirst {m : Move} {written tokens : List Token}
    (keeps : m.Keeps (written ++ tokens)) : (m.writingFirst tokens).Keeps written := by
  unfold Keeps at keeps ⊢
  rw [written_writingFirst, next_writingFirst, ← List.append_assoc]
  exact keeps

section Steps

variable {written : List Token}

theorem literalMove_keeps (opened : OpenAt .outputStart written) (c : Char) :
    (literalMove c).Keeps written := by
  unfold literalMove Move.Keeps
  split_ifs with tag newline quote
  · rw [List.append_nil]
    exact opened
  · -- A newline ends its item and opens the next one.
    have split := (((opened.char '\\').char 'n').closeOutput).opening .outputStart
    simpa [State.Admits] using split
  · have escaped := (opened.char '\\').char '"'
    simpa [State.Admits] using escaped
  · exact opened.char c

theorem codeMove_keeps (complete : Complete written) (c : Char) : (codeMove c).Keeps written := by
  unfold codeMove Move.Keeps
  split_ifs with percent
  · rw [List.append_nil]
    exact complete
  · exact complete.item (.code c)

theorem expressionMove_keeps (opened : OpenAt .exprStart written) (c : Char) :
    (expressionMove c).Keeps written := by
  unfold expressionMove Move.Keeps
  split_ifs with percent
  · rw [List.append_nil]
    exact opened
  · exact opened.char c

/-- Whatever is read, the next state admits what is written then. -/
theorem State.move_keeps {s : State} (admits : s.Admits written) (c : Char) :
    (s.move c).Keeps written := by
  cases s with
  | start =>
    cases admits
    simp only [move]
    split_ifs with tag
    · rfl
    · exact (literalMove_keeps (Complete.nil.opening .outputStart) c).writingFirst
  | literal => exact literalMove_keeps admits c
  | tagPending =>
    simp only [move]
    split_ifs with percent
    · exact OpenAt.closeOutput admits
    · exact (literalMove_keeps (OpenAt.char admits '<') c).writingFirst
  | firstTagPending =>
    cases admits
    simp only [move]
    split_ifs with percent
    · exact Complete.nil
    · have begun := (Complete.nil.opening .outputStart).char '<'
      exact (literalMove_keeps begun c).writingFirst
  | directiveOpened =>
    simp only [move]
    split_ifs with equals
    · exact Complete.opening admits .exprStart
    · exact codeMove_keeps admits c
  | code => exact codeMove_keeps admits c
  | codeClosePending =>
    simp only [move]
    split_ifs with closes
    · exact Complete.opening admits .outputStart
    · exact (codeMove_keeps (Complete.item admits (.code '%')) c).writingFirst
  | expression => exact expressionMove_keeps admits c
  | expressionClosePending =>
    simp only [move]
    split_ifs with closes
    · have next := (OpenAt.closeExpression admits).opening .outputStart
      simpa [Move.Keeps, Admits] using next
    · exact (expressionMove_keeps (OpenAt.char admits '%') c).writingFirst
  | invalid => cases admits

/-- Along a run every state admits what has been written by then. -/
theorem State.admits_run {s : State} (admits : s.Admits written) (cs : List Char) :
    (s.run cs).Admits (written ++ s.written cs) := by
  induction cs generalizing s written with
  | nil =>
    rw [State.written, List.append_nil]
    exact admits
  | cons c cs ih =>
    have next : (s.move c).next.Admits (written ++ (s.move c).written) := move_keeps admits c
    have rest := ih next
    rw [run_cons, State.written, ← List.append_assoc]
    exact rest

/-- If the template ends, the item that is open is closed as the last one. -/
theorem State.exists_items_of_finish {s : State} (admits : s.Admits written) {rest : List Token}
    (finished : s.ending = .ok rest) :
    ∃ (items : List Item) (text : List Char),
      written ++ rest = Item.allTokens (items ++ [.output text]) := by
  cases s with
  | start =>
    cases admits
    cases finished
    exact (Complete.nil.opening .outputStart).exists_output
  | literal =>
    cases finished
    exact OpenAt.exists_output admits
  | tagPending =>
    cases finished
    have ended := (OpenAt.char admits '<').exists_output
    rwa [List.append_assoc] at ended
  | firstTagPending =>
    cases admits
    cases finished
    exact ((Complete.nil.opening .outputStart).char '<').exists_output
  | invalid => cases admits
  | _ => cases finished

end Steps

/-- From the beginning of a template, whatever is read, the state reached admits
what has been written, and it is never the invalid one.  A template has a script
of complete items that ends with an output item, or no script at all. -/
theorem written_matches_state (cs : List Char) :
    (∃ tokens : List Token, (State.start.run cs).Admits tokens ∧
      ∀ w : Wrappers, State.start.runText w "" cs =
        (State.start.run cs, String.ofList (Token.expand w tokens))) ∧
    State.start.run cs ≠ .invalid ∧
    ((∃ (items : List Item) (text : List Char), ∀ w : Wrappers,
        (w.transpile cs).result =
          .ok (String.ofList (Token.expand w (Item.allTokens (items ++ [.output text]))))) ∨
      ∃ f : Failure, ∀ w : Wrappers, (w.transpile cs).result = .error f) := by
  have admits (text : List Char) :
      (State.start.run text).Admits (State.start.written text) := by
    have begun : State.start.Admits [] := rfl
    exact State.admits_run begun text
  refine ⟨⟨_, admits cs, ?_⟩, ?_, ?_⟩
  · intro w
    rw [State.runText_eq, String.empty_append]
  · intro invalid
    have impossible := admits cs
    rw [invalid] at impossible
    exact impossible
  · cases finished : (State.start.run (normalize cs)).ending with
    | ok rest =>
      rcases State.exists_items_of_finish (admits (normalize cs)) finished with ⟨items, text, same⟩
      refine .inl ⟨items, text, fun w => ?_⟩
      rw [transpile_of_finish finished w, same]
    | error reason =>
      exact .inr ⟨_, transpile_of_unfinished finished⟩

end Scan
end TemplateScript
