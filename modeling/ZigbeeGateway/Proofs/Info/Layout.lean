-- Layouts of tokens. The same tokens may be written with any blanks and comments between them, a
-- text as a bare word or in quotes, and quotes may go on in the next line. Whatever the layout, the
-- tokens are read back with the lines where they start.
import ZigbeeGateway.Info.Token
namespace ZigbeeGateway.Info

/-! ## Layouts -/

/-- A text that can stand without quotes. -/
structure Bare (w : List Char) : Prop where
  ne_nil : w ≠ []
  inside : ∀ c ∈ w, endsWord c = false
  no_backslash : w.head? ≠ some '\\'

/-- The characters after an opening quote, up to the closing one, that stand for a text and run over
some line breaks. -/
inductive Quoted : (breaks : Nat) → (text chars : List Char) → Prop
  | close : Quoted 0 [] ['"']
  | plain {n : Nat} {c : Char} {text cs : List Char} :
      c ≠ '\n' → c ≠ '"' → c ≠ '\\' → Quoted n text cs → Quoted n (c :: text) (c :: cs)
  | escape {n : Nat} {c e : Char} {text cs : List Char} :
      escaped? e = some c → Quoted n text cs → Quoted n (c :: text) ('\\' :: e :: cs)
  | goOn {n : Nat} {before behind indent text cs : List Char} :
      (∀ c ∈ before, isBlank c) → (∀ c ∈ behind, isBlank c) → (∀ c ∈ indent, isBlank c) →
      Quoted n text cs →
      Quoted (n + 1) text ('"' :: before ++ '\\' :: behind ++ '\n' :: indent ++ '"' :: cs)

/-- The characters from the line `line` on that are a layout of tokens. -/
inductive Layout : (line : Nat) → List Placed → List Char → Prop
  | nil {line : Nat} : Layout line [] []
  | blank {line : Nat} {c : Char} {ts : List Placed} {cs : List Char} :
      isBlank c → Layout line ts cs → Layout line ts (c :: cs)
  | comment {line : Nat} {remark : List Char} {ts : List Placed} {cs : List Char} :
      '\n' ∉ remark → (∀ c ∈ cs.head?, c = '\n') → Layout line ts cs →
      Layout line ts (';' :: remark ++ cs)
  | lineBreak {line : Nat} {ts : List Placed} {cs : List Char} :
      Layout (line + 1) ts cs → Layout line (⟨.lineBreak, line⟩ :: ts) ('\n' :: cs)
  | opening {line : Nat} {ts : List Placed} {cs : List Char} :
      Layout line ts cs → Layout line (⟨.opening, line⟩ :: ts) ('\x7b' :: cs)
  | closing {line : Nat} {ts : List Placed} {cs : List Char} :
      Layout line ts cs → Layout line (⟨.closing, line⟩ :: ts) ('\x7d' :: cs)
  | word {line : Nat} {w : List Char} {ts : List Placed} {cs : List Char} :
      Bare w → (∀ c ∈ cs.head?, endsWord c) → Layout line ts cs →
      Layout line (⟨.text (String.ofList w), line⟩ :: ts) (w ++ cs)
  | quotes {line breaks : Nat} {text q : List Char} {ts : List Placed} {cs : List Char} :
      Quoted breaks text q → Layout (line + breaks) ts cs →
      Layout line (⟨.text (String.ofList text), line⟩ :: ts) ('"' :: q ++ cs)

/-! ## Characters one after the other -/

theorem blank_cases {c : Char} (h : isBlank c) : c = ' ' ∨ c = '\t' ∨ c = '\r' := by
  simpa [isBlank, or_assoc] using h

theorem endsWord_of_blank {c : Char} (h : isBlank c) : endsWord c := by
  rcases blank_cases h with rfl | rfl | rfl <;> decide

/-- Nothing that goes on a word is a blank. -/
theorem not_blank_of_not_endsWord {c : Char} (h : endsWord c = false) : isBlank c = false :=
  Bool.eq_false_iff.mpr fun hblank => by simp [endsWord_of_blank hblank] at h

namespace Scan

variable {line opened start n : Nat} {c : Char} {text q w cs : List Char} {ts toks : List Placed}

/-- The tokens of a text whose reading has come to the state. -/
def run (s : Scan) (cs : List Char) : Except SchemaError (List Placed) := do
  (← cs.foldlM step s).finish

theorem run_nil (s : Scan) : s.run [] = s.finish := rfl

theorem run_cons {s t : Scan} (h : s.step c = .ok t) (cs : List Char) :
    s.run (c :: cs) = t.run cs := by
  simp only [run, List.foldlM_cons, h]
  rfl

theorem run_skip {s : Scan} (h : ∀ c ∈ w, s.step c = .ok s) (cs : List Char) :
    s.run (w ++ cs) = s.run cs := by
  induction w with
  | nil => rfl
  | cons c w ih =>
    rw [List.cons_append, run_cons (h c List.mem_cons_self)]
    exact ih fun d hd => h d (List.mem_cons_of_mem c hd)

/-- A character that does what it does between tokens. -/
theorem run_eq_gap {s : Scan} (h : s.step c = (⟨line, .gap, toks⟩ : Scan).stepGap c)
    (cs : List Char) : s.run (c :: cs) = (⟨line, .gap, toks⟩ : Scan).run (c :: cs) := by
  simp only [run, List.foldlM_cons, h]
  rfl

theorem run_gap_blank (h : isBlank c) (cs : List Char) :
    (⟨line, .gap, toks⟩ : Scan).run (c :: cs) = (⟨line, .gap, toks⟩ : Scan).run cs := by
  rcases blank_cases h with rfl | rfl | rfl <;> exact run_cons rfl cs

/-! ## Comments -/

theorem run_comment (hw : '\n' ∉ w) (hcs : ∀ c ∈ cs.head?, c = '\n') :
    (⟨line, .gap, toks⟩ : Scan).run (';' :: w ++ cs) = (⟨line, .gap, toks⟩ : Scan).run cs := by
  have hskip : ∀ c ∈ w, (⟨line, .comment, toks⟩ : Scan).step c = .ok ⟨line, .comment, toks⟩ := by
    intro c hc
    have : c ≠ '\n' := fun e => hw (e ▸ hc)
    simp only [step, if_neg this]
  rw [List.cons_append, run_cons (t := ⟨line, .comment, toks⟩) rfl, run_skip hskip]
  cases cs with
  | nil => rfl
  | cons c cs =>
    obtain rfl := hcs c rfl
    rfl

/-! ## Words -/

theorem run_in_word (hw : ∀ c ∈ w, endsWord c = false) :
    (⟨line, .word start text, toks⟩ : Scan).run (w ++ cs) =
      (⟨line, .word start (w.reverse ++ text), toks⟩ : Scan).run cs := by
  induction w generalizing text with
  | nil => rfl
  | cons c w ih =>
    have hc : (⟨line, .word start text, toks⟩ : Scan).step c =
        .ok ⟨line, .word start (c :: text), toks⟩ := by
      simp only [step, hw c List.mem_cons_self]
      rfl
    rw [List.cons_append, run_cons hc, ih fun d hd => hw d (List.mem_cons_of_mem c hd)]
    simp

theorem run_after_word (hcs : ∀ c ∈ cs.head?, endsWord c) :
    (⟨line, .word start text, toks⟩ : Scan).run cs =
      (⟨line, .gap, ⟨.text (String.ofList text.reverse), start⟩ :: toks⟩ : Scan).run cs := by
  cases cs with
  | nil => rfl
  | cons c cs =>
    have hc : endsWord c = true := hcs c rfl
    refine run_eq_gap ?_ cs
    simp only [step, hc, if_true]
    rfl

theorem step_gap_of_not_endsWord (h : endsWord c = false) :
    (⟨line, .gap, toks⟩ : Scan).step c = .ok ⟨line, .word line [c], toks⟩ := by
  have hblank := not_blank_of_not_endsWord h
  simp only [endsWord, Bool.or_eq_false_iff, beq_eq_false_iff_ne] at h
  obtain ⟨⟨⟨⟨hspace, hopen⟩, hclose⟩, hsemi⟩, hquote⟩ := h
  have hbreak : c ≠ '\n' := by
    rintro rfl
    exact absurd hspace (by decide)
  simp only [step, stepGap, hbreak, hsemi, hopen, hclose, hquote, hblank, hspace, if_false,
    Bool.false_eq_true]

theorem run_word (hw : Bare w) (hcs : ∀ c ∈ cs.head?, endsWord c) :
    (⟨line, .gap, toks⟩ : Scan).run (w ++ cs) =
      (⟨line, .gap, ⟨.text (String.ofList w), line⟩ :: toks⟩ : Scan).run cs := by
  cases w with
  | nil => exact absurd rfl hw.ne_nil
  | cons c w =>
    rw [List.cons_append, run_cons (step_gap_of_not_endsWord (hw.inside c List.mem_cons_self)),
      run_in_word fun d hd => hw.inside d (List.mem_cons_of_mem c hd), run_after_word hcs]
    simp

/-! ## Quotes -/

theorem run_goOn {before behind indent : List Char} (hbefore : ∀ c ∈ before, isBlank c)
    (hbehind : ∀ c ∈ behind, isBlank c) (hindent : ∀ c ∈ indent, isBlank c) :
    (⟨line, .quoted start opened text, toks⟩ : Scan).run
        ('"' :: before ++ '\\' :: behind ++ '\n' :: indent ++ '"' :: q ++ cs) =
      (⟨line + 1, .quoted start (line + 1) text, toks⟩ : Scan).run (q ++ cs) := by
  simp only [List.cons_append, List.append_assoc]
  rw [run_cons (t := ⟨line, .closed start text, toks⟩) rfl,
    run_skip fun c hc => by simp only [step, hbefore c hc, if_true],
    run_cons (t := ⟨line, .broken start text, toks⟩) rfl,
    run_skip fun c hc => by simp only [step, hbehind c hc, if_true],
    run_cons (t := ⟨line + 1, .resumed start text, toks⟩) rfl,
    run_skip fun c hc => by simp only [step, hindent c hc, if_true],
    run_cons (t := ⟨line + 1, .quoted start (line + 1) text, toks⟩) rfl]

theorem run_quoted (h : Quoted n text q) {acc : List Char} :
    (⟨line, .quoted start opened acc, toks⟩ : Scan).run (q ++ cs) =
      (⟨line + n, .closed start (text.reverse ++ acc), toks⟩ : Scan).run cs := by
  induction h generalizing line opened acc with
  | close => exact run_cons rfl cs
  | @plain n c text q hbreak hquote hslash h ih =>
    have hstep : (⟨line, .quoted start opened acc, toks⟩ : Scan).step c =
        .ok ⟨line, .quoted start opened (c :: acc), toks⟩ := by
      simp only [step, if_neg hbreak, if_neg hquote, if_neg hslash]
    rw [List.cons_append, run_cons hstep, ih]
    simp
  | @escape n c e text q hescaped h ih =>
    have hstep : (⟨line, .escape start opened acc, toks⟩ : Scan).step e =
        .ok ⟨line, .quoted start opened (c :: acc), toks⟩ := by
      simp only [step, hescaped]
    rw [List.cons_append, List.cons_append,
      run_cons (t := ⟨line, .escape start opened acc, toks⟩) rfl, run_cons hstep, ih]
    simp
  | @goOn n before behind indent text q hbefore hbehind hindent h ih =>
    rw [run_goOn hbefore hbehind hindent, ih, Nat.add_assoc,
      Nat.add_comm 1]

theorem run_closed_cons (hblank : isBlank c = false) (hslash : c ≠ '\\') :
    (⟨line, .closed start text, toks⟩ : Scan).run (c :: cs) =
      (⟨line, .gap, ⟨.text (String.ofList text.reverse), start⟩ :: toks⟩ : Scan).run (c :: cs) := by
  refine run_eq_gap ?_ cs
  simp only [step, hblank, if_neg hslash]
  rfl

/-- A layout never starts with blanks and a backslash, by which quotes would go on. -/
theorem run_closed (h : Layout line ts cs) :
    (⟨line, .closed start text, toks⟩ : Scan).run cs =
      (⟨line, .gap, ⟨.text (String.ofList text.reverse), start⟩ :: toks⟩ : Scan).run cs := by
  induction h with
  | nil => rfl
  | @blank line c ts cs hblank h ih =>
    have hstep : (⟨line, .closed start text, toks⟩ : Scan).step c =
        .ok ⟨line, .closed start text, toks⟩ := by
      simp only [step, hblank, if_true]
    rw [run_cons hstep, ih, run_gap_blank hblank]
  | comment | lineBreak | opening | closing | quotes =>
    exact run_closed_cons (by decide) (by decide)
  | @word line w ts cs hw =>
    cases w with
    | nil => exact absurd rfl hw.ne_nil
    | cons c w =>
      have hblank := not_blank_of_not_endsWord (hw.inside c List.mem_cons_self)
      exact run_closed_cons hblank fun e => hw.no_backslash (congrArg some e)

end Scan

/-! ## Whole texts -/

theorem Layout.run {line : Nat} {ts : List Placed} {cs : List Char} (h : Layout line ts cs)
    (toks : List Placed) : (⟨line, .gap, toks⟩ : Scan).run cs = .ok (toks.reverse ++ ts) := by
  induction h generalizing toks with
  | nil => simp [Scan.run_nil, Scan.finish]
  | blank hblank h ih => rw [Scan.run_gap_blank hblank, ih]
  | comment hremark hcs h ih => rw [Scan.run_comment hremark hcs, ih]
  | @lineBreak line ts cs h ih =>
    rw [Scan.run_cons (t := ⟨line + 1, .gap, ⟨.lineBreak, line⟩ :: toks⟩) rfl, ih]
    simp
  | @opening line ts cs h ih =>
    rw [Scan.run_cons (t := ⟨line, .gap, ⟨.opening, line⟩ :: toks⟩) rfl, ih]
    simp
  | @closing line ts cs h ih =>
    rw [Scan.run_cons (t := ⟨line, .gap, ⟨.closing, line⟩ :: toks⟩) rfl, ih]
    simp
  | word hw hcs h ih =>
    rw [Scan.run_word hw hcs, ih]
    simp
  | @quotes line breaks text q ts cs hq h ih =>
    rw [List.cons_append, Scan.run_cons (t := ⟨line, .quoted line line [], toks⟩) rfl,
      Scan.run_quoted hq, Scan.run_closed h, ih]
    simp

theorem Layout.tokens_eq {ts : List Placed} {cs : List Char} (h : Layout 1 ts cs) :
    tokens cs = .ok ts :=
  h.run []

/-- A no-break space is no blank, so it stands in no layout but inside quotes and comments. -/
example : tokens "a\u00a0b".toList = .error (.atLine 1 (.endlessSpace '\u00a0')) := by
  rfl

end ZigbeeGateway.Info
