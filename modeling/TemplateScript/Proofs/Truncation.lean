import TemplateScript.Proofs.ConfigFiles

namespace TemplateScript

/-!
# Texts that are cut off

A document that is cut off anywhere before its last character is truncated, and
nothing else is wrong with it: the reader has met no problem so far, and it could
stop only behind a complete value, which the rest of the document would have to
leave in blanks.  This is so at every level of nesting and inside every string,
whatever the consumer is.

Numbers are the exception among values, since they need no mark of their end.
They do not occur in documents; that a reader is never inside of one is seen by
reading for a consumer that refuses them.
-/

namespace Json

/-! ## Consumers that refuse numbers -/

namespace Consumer

variable {σ : Type}

/-- The same consumer, except that it refuses numbers. -/
def withoutNumbers (k : Consumer σ) : Consumer σ where
  valueCare := k.valueCare
  keyCare := k.keyCare
  accept s event := if event = .number then .error .mismatched else k.accept s event

theorem accept_of_withoutNumbers {k : Consumer σ} {s after : σ} {event : Event}
    (accepted : k.withoutNumbers.accept s event = .ok after) : k.accept s event = .ok after := by
  change (if event = .number then _ else _) = _ at accepted
  split_ifs at accepted
  exact accepted

theorem follow_withoutNumbers (k : Consumer σ) {events : List Event}
    (numberless : .number ∉ events) (s : σ) :
    k.withoutNumbers.follow s events = k.follow s events := by
  induction events generalizing s with
  | nil => rfl
  | cons event events ih =>
    have heard : k.hears s event ≠ .number := by
      intro same
      cases event <;> simp [hears] at same numberless
    have accepts : k.withoutNumbers.accept s (k.withoutNumbers.hears s event) =
        k.accept s (k.hears s event) := if_neg heard
    rw [follow_cons, follow_cons, accepts]
    cases k.accept s (k.hears s event) with
    | error fault => rfl
    | ok middle => exact ih (fun later => numberless (List.mem_cons_of_mem event later)) middle

end Consumer

namespace Reader

variable {σ : Type} {k : Consumer σ} {m after : Reader σ}

theorem report_of_withoutNumbers {event : Event} {p : Phase} {a : List Bracket}
    (told : m.report k.withoutNumbers event p a = .ok after) : m.report k event p a = .ok after := by
  unfold report at told ⊢
  cases accepted : k.withoutNumbers.accept m.state event with
  | error fault =>
    rw [accepted] at told
    cases told
  | ok s =>
    rw [accepted] at told
    rw [Consumer.accept_of_withoutNumbers accepted]
    exact told

theorem beginValue_of_withoutNumbers {c : Char}
    (read : m.beginValue k.withoutNumbers c = .ok after) : m.beginValue k c = .ok after := by
  by_cases square : c = '['
  · subst square
    exact report_of_withoutNumbers read
  · by_cases curly : c = '\x7b'
    · subst curly
      exact report_of_withoutNumbers read
    · -- Nothing is told at the beginning of any other value.
      simp only [beginValue, if_neg square, if_neg curly] at read ⊢
      exact read

theorem afterValue_of_withoutNumbers {c : Char}
    (read : m.afterValue k.withoutNumbers c = .ok after) : m.afterValue k c = .ok after := by
  rcases m with ⟨p, a, s⟩
  by_cases blank : isBlank c = true
  · simp only [afterValue, if_pos blank] at read ⊢
    exact read
  · simp only [afterValue, if_neg blank] at read ⊢
    cases a with
    | nil => cases read
    | cons bracket a =>
      cases bracket with
      | square =>
        simp only at read ⊢
        split_ifs at read ⊢
        · exact report_of_withoutNumbers read
        · exact report_of_withoutNumbers read
      | curly =>
        simp only at read ⊢
        split_ifs at read ⊢
        · exact read
        · exact report_of_withoutNumbers read

theorem exists_endNumeral_withoutNumbers (k : Consumer σ) (m : Reader σ) (care : Care)
    (r : Numeral.Reading) : ∃ fault, m.endNumeral k.withoutNumbers care r = .error fault := by
  unfold endNumeral
  split_ifs
  · exact ⟨_, rfl⟩
  · exact ⟨_, rfl⟩

/-- Whoever refuses numbers reads on only where the consumer reads on. -/
theorem step_of_withoutNumbers {c : Char} (read : m.step k.withoutNumbers c = .ok after) :
    m.step k c = .ok after := by
  rcases m with ⟨p, a, s⟩
  cases p with
  | value => exact beginValue_of_withoutNumbers read
  | firstElement =>
    simp only [step] at read ⊢
    split_ifs at read ⊢
    · exact report_of_withoutNumbers read
    · exact beginValue_of_withoutNumbers read
  | firstKey =>
    simp only [step] at read ⊢
    split_ifs at read ⊢
    · exact report_of_withoutNumbers read
    · exact read
  | nextKey => exact read
  | colon => exact read
  | afterValue => exact afterValue_of_withoutNumbers read
  | quotedValue care r =>
    simp only [step] at read ⊢
    generalize r.step care c = progress at read ⊢
    rcases progress with fault | (more | text)
    · cases read
    · exact read
    · exact report_of_withoutNumbers read
  | quotedKey care r =>
    simp only [step] at read ⊢
    generalize r.step care c = progress at read ⊢
    rcases progress with fault | (more | text)
    · cases read
    · exact read
    · exact report_of_withoutNumbers read
  | word event expected last =>
    simp only [step] at read ⊢
    cases expected with
    | nil =>
      simp only at read ⊢
      split_ifs at read ⊢
      exact report_of_withoutNumbers read
    | cons e expected => exact read
  | numeral care r =>
    rcases exists_endNumeral_withoutNumbers k ⟨.numeral care r, a, s⟩ care r with ⟨fault, refused⟩
    simp only [step, refused] at read ⊢
    generalize r.step c = progress at read ⊢
    cases progress with
    | more r => exact read
    | malformed => cases read
    | ended => cases read

/-- Whoever refuses numbers does not get out of one. -/
theorem numeral_of_step {care : Care} {r : Numeral.Reading} {c : Char}
    (inside : m.phase = .numeral care r) (read : m.step k.withoutNumbers c = .ok after) :
    ∃ r, after.phase = .numeral care r := by
  rcases exists_endNumeral_withoutNumbers k m care r with ⟨fault, refused⟩
  simp only [step, inside, refused] at read
  generalize r.step c = progress at read
  cases progress with
  | more r =>
    cases read
    exact ⟨r, rfl⟩
  | malformed => cases read
  | ended => cases read

theorem feed_cons_eq_ok {c : Char} {cs : List Char} :
    m.feed k (c :: cs) = .ok after ↔ ∃ middle, m.step k c = .ok middle ∧ middle.feed k cs = .ok after := by
  rw [feed_cons]
  cases m.step k c with
  | error fault => simp
  | ok middle => simp

theorem feed_of_withoutNumbers {cs : List Char} (read : m.feed k.withoutNumbers cs = .ok after) :
    m.feed k cs = .ok after := by
  induction cs generalizing m with
  | nil => exact read
  | cons c cs ih =>
    rcases feed_cons_eq_ok.mp read with ⟨middle, here, later⟩
    exact feed_cons_eq_ok.mpr ⟨middle, step_of_withoutNumbers here, ih later⟩

theorem numeral_of_feed {care : Care} {r : Numeral.Reading} {cs : List Char}
    (inside : m.phase = .numeral care r) (read : m.feed k.withoutNumbers cs = .ok after) :
    ∃ r, after.phase = .numeral care r := by
  induction cs generalizing m r with
  | nil =>
    cases read
    exact ⟨r, inside⟩
  | cons c cs ih =>
    rcases feed_cons_eq_ok.mp read with ⟨middle, here, later⟩
    rcases numeral_of_step inside here with ⟨more, stillInside⟩
    exact ih stillInside later

/-! ## Where a text can end -/

/-- Behind a complete value there are only blanks. -/
theorem isBlank_of_feed {s : σ} {cs : List Char}
    (read : (⟨.afterValue, [], s⟩ : Reader σ).feed k cs = .ok after) :
    ∀ c ∈ cs, isBlank c = true := by
  induction cs with
  | nil =>
    intro c impossible
    cases impossible
  | cons c cs ih =>
    rcases feed_cons_eq_ok.mp read with ⟨middle, here, later⟩
    have blank : isBlank c = true := by
      by_contra noBlank
      simp only [step, afterValue, if_neg noBlank] at here
      cases here
    simp only [step, afterValue, if_pos blank] at here
    cases here
    intro d among
    rcases List.mem_cons.mp among with rfl | behind
    · exact blank
    · exact ih later d behind

/-- A text may end behind a complete value or inside a number, and nowhere else. -/
theorem finish_of_unfinished (notNumeral : ∀ care r, m.phase ≠ .numeral care r)
    (unfinished : ¬ (m.phase = .afterValue ∧ m.brackets = [])) :
    m.finish k = .error .truncated := by
  rcases m with ⟨p, a, s⟩
  cases p with
  | numeral care r => exact absurd rfl (notNumeral care r)
  | afterValue =>
    cases a with
    | nil => exact absurd ⟨rfl, rfl⟩ unfinished
    | cons bracket a => rfl
  | _ => rfl

end Reader

/-! ## Documents that are cut off -/

namespace Document

mutual

/-- Documents hold no numbers. -/
theorem number_notMem_events : (d : Document) → .number ∉ d.events
  | .null => by simp [events]
  | .text s => by simp [events]
  | .array [] => by simp [events]
  | .array (first :: rest) => by
    simp [events, number_notMem_events first, number_notMem_eventsOfItems rest]
  | .object [] => by simp [events]
  | .object ((key, value) :: rest) => by
    simp [events, number_notMem_events value, number_notMem_eventsOfMembers rest]

theorem number_notMem_eventsOfItems : (items : List Document) → .number ∉ eventsOfItems items
  | [] => by simp [eventsOfItems]
  | item :: rest => by
    simp [eventsOfItems, number_notMem_events item, number_notMem_eventsOfItems rest]

theorem number_notMem_eventsOfMembers :
    (members : List (String × Document)) → .number ∉ eventsOfMembers members
  | [] => by simp [eventsOfMembers]
  | (key, value) :: rest => by
    simp [eventsOfMembers, number_notMem_events value, number_notMem_eventsOfMembers rest]

end

/-- The last character of a document is no blank. -/
theorem exists_write_eq_concat (depth : Nat) (d : Document) :
    ∃ front last, d.write depth = front ++ [last] ∧ isBlank last = false := by
  rcases d with _ | s | ⟨_ | ⟨first, rest⟩⟩ | ⟨_ | ⟨⟨key, value⟩, rest⟩⟩
  · exact ⟨['n', 'u', 'l'], 'l', by simp [write], by decide⟩
  · exact ⟨'"' :: s.toList.flatMap Quoted.escape, '"', by simp [write, Quoted.write], by decide⟩
  · exact ⟨['['], ']', by simp [write], by decide⟩
  · exact ⟨_, ']', by rw [write], by decide⟩
  · exact ⟨['\x7b'], '\x7d', by simp [write], by decide⟩
  · exact ⟨_, '\x7d', by rw [write], by decide⟩

end Document

namespace Reader

variable {σ : Type} {k : Consumer σ}

theorem read_write (k : Consumer σ) (s : σ) (d : Document) :
    read k s (d.write 0) = k.follow s d.events := by
  rw [read, begin, tells_write k [] 0 d s]
  cases k.follow s d.events <;> rfl

/-- A document that is cut off is truncated, for every consumer that would have
accepted it as a whole. -/
theorem read_cut_off {s accepted : σ} {d : Document} (whole : k.follow s d.events = .ok accepted)
    {cut rest : List Char} (split : d.write 0 = cut ++ rest) (missing : rest ≠ []) :
    read k s cut = .error .truncated := by
  -- The whole document is read, also if numbers are refused.
  have complete : (begin s).feed k.withoutNumbers (cut ++ rest) = .ok ⟨.afterValue, [], accepted⟩ := by
    rw [← split, begin, tells_write k.withoutNumbers [] 0 d s,
      k.follow_withoutNumbers d.number_notMem_events, whole]
    rfl
  rw [feed_append] at complete
  cases reached : (begin s).feed k.withoutNumbers cut with
  | error fault =>
    rw [reached] at complete
    cases complete
  | ok m =>
    simp only [reached] at complete
    have finished : m.finish k = .error .truncated := by
      apply finish_of_unfinished
      · -- Inside a number the rest would not lead out of it.
        intro care r inside
        rcases numeral_of_feed inside complete with ⟨r, impossible⟩
        cases impossible
      · -- Behind the value the rest would be blank, but it has the last character.
        rintro ⟨phase, brackets⟩
        rcases m with ⟨p, a, s⟩
        cases phase
        cases brackets
        rcases d.exists_write_eq_concat 0 with ⟨front, last, written, noBlank⟩
        have among : last ∈ rest := by
          have same : rest.getLast? = some last := by
            rw [← List.getLast?_append_of_ne_nil cut missing, ← split, written,
              List.getLast?_concat]
          exact List.mem_of_getLast? same
        rw [isBlank_of_feed complete last among] at noBlank
        cases noBlank
    rw [read, feed_of_withoutNumbers reached]
    exact finished

end Reader

end Json

/-! ## Configurations that are cut off -/

namespace Config

/-- A configuration ends with a closing bracket and a line end. -/
theorem exists_write_eq_concat (c : Config) :
    ∃ body, c.document.write 0 = body ++ ['\x7d'] := by
  unfold document
  rw [Json.Document.write]
  exact ⟨_, rfl⟩

theorem render_toList (c : Config) : c.render.toList = c.document.write 0 ++ ['\n'] := by
  simp [render, Json.Document.render]

theorem parse_write (c : Config) : parse (c.document.write 0) = .ok c := by
  simp only [parse, Json.Reader.read_write, follow_document]

theorem parse_cut_off (c : Config) {cut rest : List Char}
    (split : c.document.write 0 = cut ++ rest) (missing : rest ≠ []) :
    parse cut = .error .truncated := by
  simp only [parse, Json.Reader.read_cut_off (follow_document c) split missing]

/-- Only the line end may be missing. -/
theorem ofBytes_of_complete (c : Config) (p : Path) {held : Bytes}
    (cut : held <+: Utf8.encode c.render.toList)
    (whole : Utf8.encode (c.document.write 0) <+: held) : ofBytes p held = .ok c := by
  rcases whole with ⟨ending, rfl⟩
  rw [render_toList, Utf8.encode_append, List.prefix_append_right_inj] at cut
  change ending <+: [10] at cut
  cases ending with
  | nil => simp only [List.append_nil, ofBytes, Utf8.decode?_encode, parse_write]
  | cons b ending =>
    rcases List.cons_prefix_cons.mp cut with ⟨rfl, nothing⟩
    rw [List.prefix_nil.mp nothing]
    have same : Utf8.encode (c.document.write 0) ++ [10] = Utf8.encode c.render.toList := by
      rw [render_toList, Utf8.encode_append]
      rfl
    rw [same, ofBytes_render]

/-- Text in which the closing bracket is missing. -/
theorem ofBytes_of_incomplete (c : Config) (p : Path) {text : List Char}
    (cut : text <+: c.render.toList)
    (incomplete : ¬ Utf8.encode (c.document.write 0) <+: Utf8.encode text) :
    ofBytes p (Utf8.encode text) = .error (.invalidConfig p.spelling .truncated text) := by
  rw [Utf8.encode_prefix_encode_iff] at incomplete
  rw [render_toList, List.prefix_concat_iff] at cut
  rcases cut with rfl | ⟨rest, split⟩
  · exact absurd (List.prefix_append _ _) incomplete
  · have missing : rest ≠ [] := by
      rintro rfl
      rw [List.append_nil] at split
      exact incomplete (split ▸ List.prefix_refl _)
    rw [ofBytes, Utf8.decode?_encode]
    simp only [parse_cut_off c split.symm missing]

theorem ofBytes_of_endsInside {c : Config} (p : Path) {held part : Bytes} {front : List Char}
    {d : Char} (inside : Utf8.EndsInside c.render.toList held front d part) :
    ofBytes p held = .error (.unreadableConfig p.spelling .notText) := by
  simp only [ofBytes, inside.decode?_eq_none]

theorem ofBytes_cut_off (c : Config) (p : Path) {held : Bytes}
    (cut : held <+: Utf8.encode c.render.toList) :
    ofBytes p held = .ok c ∨
      (∃ text, ofBytes p held = .error (.invalidConfig p.spelling .truncated text)) ∨
      ofBytes p held = .error (.unreadableConfig p.spelling .notText) := by
  by_cases complete : Utf8.encode (c.document.write 0) <+: held
  · exact .inl (c.ofBytes_of_complete p cut complete)
  · rcases Utf8.boundary_or_endsInside cut with ⟨text, front, rfl⟩ | ⟨front, d, part, inside⟩
    · exact .inr (.inl ⟨text, c.ofBytes_of_incomplete p front complete⟩)
    · exact .inr (.inr (ofBytes_of_endsInside p inside))

/-- The file of a saved configuration may be cut off anywhere.  As long as it
holds the closing bracket, it is the configuration; before that it is none, and
nothing is found wrong with it except that it ends too early or, inside a
character, that it is no text.  It is never taken for another configuration. -/
theorem load_cut_off (c : Config) (p : Path) (w : World) (held : Bytes)
    (cut : held <+: Utf8.encode c.render.toList)
    (stored : w.files.access p = .ok (.file held)) :
    (∃ body, c.render.toList = body ++ ['\x7d', '\n'] ∧
      (Utf8.encode (body ++ ['\x7d']) <+: held → (load p).run w = (.ok c, w)) ∧
      (¬ Utf8.encode (body ++ ['\x7d']) <+: held →
        (∀ text, text <+: c.render.toList → held = Utf8.encode text →
          (load p).run w = (.error (.invalidConfig p.spelling .truncated text), w)) ∧
        ∀ front d part, Utf8.EndsInside c.render.toList held front d part →
          ∃ cause, cause.kind = .invalidData ∧
            (load p).run w = (.error (.unreadableConfig p.spelling cause), w))) ∧
    ((∃ text, text <+: c.render.toList ∧ held = Utf8.encode text) ∨
      ∃ front d part, Utf8.EndsInside c.render.toList held front d part) ∧
    (∀ other, ((load p).run w).1 = .ok other → other = c) ∧
    ∀ path fault text, ((load p).run w).1 = .error (.invalidConfig path fault text) →
      fault = .truncated := by
  rw [run_load_file stored]
  refine ⟨?_, Utf8.boundary_or_endsInside cut, ?_, ?_⟩
  · rcases c.exists_write_eq_concat with ⟨body, written⟩
    refine ⟨body, ?_, ?_, ?_⟩
    · rw [render_toList, written, List.append_assoc]
      rfl
    · intro complete
      rw [c.ofBytes_of_complete p cut (written ▸ complete)]
    · intro incomplete
      constructor
      · rintro text front rfl
        rw [c.ofBytes_of_incomplete p front (written ▸ incomplete)]
      · intro front d part inside
        exact ⟨.notText, rfl, by rw [ofBytes_of_endsInside p inside]⟩
  · intro other loaded
    change ofBytes p held = _ at loaded
    rcases c.ofBytes_cut_off p cut with same | ⟨_, truncated⟩ | noText
    · exact Except.ok.inj (loaded.symm.trans same)
    · cases loaded.symm.trans truncated
    · cases loaded.symm.trans noText
  · intro path fault text refused
    change ofBytes p held = _ at refused
    rcases c.ofBytes_cut_off p cut with same | ⟨_, truncated⟩ | noText
    · cases refused.symm.trans same
    · cases refused.symm.trans truncated
      rfl
    · cases refused.symm.trans noText

theorem load_cut_off_inside_name :
    let c : Config := ⟨some "é", none⟩
    let held : Bytes := (Utf8.encode c.render.toList).take 16
    let w : World := { files := ⟨[(["c.json"], .file held)], []⟩ }
    held <+: Utf8.encode c.render.toList ∧ w.files.access ⟨"c.json"⟩ = .ok (.file held) ∧
      ∃ cause, cause.kind = .invalidData ∧
        (load ⟨"c.json"⟩).run w = (.error (.unreadableConfig "c.json" cause), w) := by
  intro c held w
  have cut : held <+: Utf8.encode c.render.toList := List.take_prefix _ _
  have stored : w.files.access ⟨"c.json"⟩ = .ok (.file held) := rfl
  have inside : Utf8.EndsInside c.render.toList held "\x7b\n  \"preset\": \"".toList 'é' [0xC3] := by
    subst held c
    exact ⟨by decide +kernel, by decide +kernel, by decide, by decide, by decide⟩
  rcases (load_cut_off c ⟨"c.json"⟩ w held cut stored).1 with ⟨body, text, -, early⟩
  have incomplete : ¬ Utf8.encode (body ++ ['\x7d']) <+: held := by
    have front : body ++ ['\x7d'] = c.render.toList.dropLast := by
      rw [text, List.dropLast_append_cons]
      rfl
    rw [front]
    subst held c
    decide +kernel
  exact ⟨cut, stored, (early incomplete).2 _ _ _ inside⟩

end Config

end TemplateScript
