import Mathlib.Data.List.Forall2
import ScopedLisp.Proofs.FormExactness

/-!
# How forms lie in their tokens

A form that was read lies in its tokens as its children lie in theirs: in front
are the opening parenthesis and what heads the form, then come the tokens of
the children, one child after the other, and a closing parenthesis ends the
form (`Form.LaidOut`).  A form is placed at one of the tokens in front of its
children, and the argument group of a call at the first token behind them.

The children are read from their own tokens alone, so the layout can be
followed into them: an induction over a form that was read has the layout of
every form inside it (`Form.exists_laidOut`).
-/

namespace ScopedLisp

/-! ## Children -/

/-- The forms directly inside a form, in the order in which they are written. -/
def Form.children : Form → List Form
  | .literal _ _ | .variable _ => []
  | .assignment _ value => [value]
  | .conditional _ test consequent alternate => [test, consequent, alternate]
  | .lambda _ _ body => [body]
  | .sequence _ items => items
  | .printLine _ value => [value]
  | .operation _ _ left right => [left, right]
  | .call _ _ arguments => arguments

/-- Some lists of tokens are read as some forms, each as one form. -/
abbrev ReadEach (parts : List (List Token)) (forms : List Form) : Prop :=
  List.Forall₂ (fun part form => Form.ofTokens part = .ok form) parts forms

/-! ## Reading derivable tokens -/

theorem Form.eq_of_reads {tokens : List Token} {form other : Form}
    (read : Form.ofTokens tokens = .ok form)
    (reads : Reader.Reads tokens other) : form = other := by
  rw [reads.ofTokens] at read
  exact (Except.ok.inj read).symm

/-- A form that was read comes from a derivation. -/
theorem Form.derives_of_ofTokens {tokens : List Token} {form : Form}
    (read : Form.ofTokens tokens = .ok form) :
    Derives .form tokens ∧ LiteralsConvert tokens := by
  rcases Form.ofTokens_wrote read with ⟨written, wellFormed⟩
  have readFrom := wellFormed.readable tokens written
  exact ⟨readFrom.derivation, readFrom.literals⟩

theorem Derives.exists_reads {tokens : List Token}
    (derivation : Derives .form tokens) (literals : LiteralsConvert tokens) :
    ∃ form, Reader.Reads tokens form := by
  rcases derivation.exists_form literals with ⟨form, wellFormed, written⟩
  rcases (wellFormed.readable tokens written).reading with ⟨parsed, -, reads⟩
  exact ⟨parsed, reads⟩

theorem Derives.areNames {tokens : List Token}
    (derivation : Derives .names tokens) :
    ∀ token ∈ tokens, token.kind = .identifier := by
  generalize nonterminal : Nonterminal.names = kind at derivation
  induction derivation with
  | noNames => exact List.forall_mem_nil _
  | moreNames isName _ ih => exact List.forall_mem_cons.mpr ⟨isName, ih rfl⟩
  | _ => contradiction

/-- Derivable forms are read one after the other, each from its own part of the tokens. -/
theorem Derives.exists_readsAll {tokens : List Token}
    (derivation : Derives .forms tokens) (literals : LiteralsConvert tokens) :
    ∃ parts forms, tokens = parts.flatten ∧ ReadEach parts forms ∧
      Reader.ReadsAll tokens forms := by
  generalize nonterminal : Nonterminal.forms = kind at derivation
  induction derivation with
  | noForms => exact ⟨[], [], rfl, .nil, .nil⟩
  | @moreForms first rest form forms _ ih =>
      rcases literalsConvert_append.mp literals with ⟨inFirst, inRest⟩
      rcases form.exists_reads inFirst with ⟨read, reads⟩
      rcases ih inRest rfl with ⟨parts, readRest, rfl, each, readsAll⟩
      exact ⟨first :: parts, read :: readRest, rfl,
        .cons reads.ofTokens each, .cons reads readsAll⟩
  | _ => contradiction

/-! ## Layouts -/

/--
The tokens of a form: what is in front of its children, a part for each of
them, and what is behind them.
-/
structure Form.LaidOut (form : Form) (own front : List Token)
    (parts : List (List Token)) (back : List Token) : Prop where
  covers : own = front ++ (parts.flatten ++ back)
  each : ReadEach parts form.children
  place : form.position ∈ front.map (·.position)
  group : ∀ name group arguments, form = .call name group arguments →
    ∃ opening head closing, front = [opening, head] ∧ back = [closing] ∧
      closing.kind = .closeParen ∧
      (parts.flatten ++ [closing]).head?.map (·.position) = some group

/-- A compound form lies between parentheses, and its children behind its head. -/
theorem Form.exists_laidOut_compound {form : Form} {opening closing : Token}
    {tokens : List Token}
    (read : Form.ofTokens (opening :: tokens ++ [closing]) = .ok form)
    (opens : opening.kind = .openParen) (compound : Derives .compound tokens)
    (closes : closing.kind = .closeParen) (literals : LiteralsConvert tokens) :
    ∃ front parts back,
      form.LaidOut (opening :: tokens ++ [closing]) front parts back := by
  cases compound with
  | @sequence head items word forms =>
      rcases forms.exists_readsAll (literalsConvert_cons.mp literals).2 with
        ⟨parts, children, rfl, each, readsAll⟩
      obtain rfl := Form.eq_of_reads read
        (.sequence opens closes word readsAll)
      exact ⟨[opening, head], parts, [closing], rfl, each,
        List.mem_cons_self, by rintro _ _ _ ⟨⟩⟩
  | @lambda head listOpening listClosing names body word listOpens areNames
      listCloses form =>
      simp only [List.cons_append, literalsConvert_cons,
        literalsConvert_append] at literals
      rcases form.exists_reads literals.2.2.2.2 with ⟨child, reads⟩
      obtain rfl := Form.eq_of_reads read (.lambda opens closes word listOpens
        areNames.areNames listCloses reads)
      exact ⟨opening :: head :: (listOpening :: names ++ [listClosing]), [body],
        [closing], by simp, .cons reads.ofTokens .nil, List.mem_cons_self,
        by rintro _ _ _ ⟨⟩⟩
  | @conditional head test consequent alternate word tested chosen otherwise =>
      simp only [List.cons_append, literalsConvert_cons,
        literalsConvert_append] at literals
      rcases tested.exists_reads literals.2.1.1 with ⟨first, readsFirst⟩
      rcases chosen.exists_reads literals.2.1.2 with ⟨second, readsSecond⟩
      rcases otherwise.exists_reads literals.2.2 with ⟨third, readsThird⟩
      have reads := Reader.Reads.conditional opens closes word readsFirst
        readsSecond readsThird
      obtain rfl := Form.eq_of_reads read (by simpa using reads)
      have each : ReadEach [test, consequent, alternate]
          [first, second, third] :=
        .cons readsFirst.ofTokens (.cons readsSecond.ofTokens
          (.cons readsThird.ofTokens .nil))
      exact ⟨[opening, head], [test, consequent, alternate], [closing],
        by simp, each, List.mem_cons_self, by rintro _ _ _ ⟨⟩⟩
  | @assignment head target value word isName form =>
      simp only [literalsConvert_cons] at literals
      rcases form.exists_reads literals.2.2 with ⟨child, reads⟩
      obtain rfl := Form.eq_of_reads read
        (.assignment opens closes word isName reads)
      exact ⟨[opening, head, target], [value], [closing], by simp,
        .cons reads.ofTokens .nil, by simp [Form.position, Token.identifier],
        by rintro _ _ _ ⟨⟩⟩
  | @operation head left right symbol isSymbol word first second =>
      simp only [List.cons_append, literalsConvert_cons,
        literalsConvert_append] at literals
      rcases first.exists_reads literals.2.1 with ⟨leftForm, readsLeft⟩
      rcases second.exists_reads literals.2.2 with ⟨rightForm, readsRight⟩
      rcases Operator.exists_symbol_of_mem isSymbol with ⟨operator, rfl⟩
      obtain rfl := Form.eq_of_reads read
        (.operation opens closes word readsLeft readsRight)
      exact ⟨[opening, head], [left, right], [closing], by simp,
        .cons readsLeft.ofTokens (.cons readsRight.ofTokens .nil),
        by simp [Form.position, Token.identifier], by rintro _ _ _ ⟨⟩⟩
  | @printLine head value word form =>
      rcases form.exists_reads (literalsConvert_cons.mp literals).2 with
        ⟨child, reads⟩
      obtain rfl := Form.eq_of_reads read (.printLine opens closes word reads)
      exact ⟨[opening, head], [value], [closing], by simp,
        .cons reads.ofTokens .nil, List.mem_cons_self, by rintro _ _ _ ⟨⟩⟩
  | @call head arguments isName unreserved forms =>
      rcases forms.exists_readsAll (literalsConvert_cons.mp literals).2 with
        ⟨parts, children, rfl, each, readsAll⟩
      rcases List.exists_cons_of_ne_nil
          (show parts.flatten ++ [closing] ≠ [] by simp) with
        ⟨first, others, split⟩
      obtain rfl := Form.eq_of_reads read
        (.callAt opens closes isName unreserved split readsAll)
      refine ⟨[opening, head], parts, [closing], rfl, each,
        by simp [Form.position, Token.identifier], ?_⟩
      rintro _ _ _ ⟨⟩
      exact ⟨opening, head, closing, rfl, rfl, closes, by rw [split]; rfl⟩

/-- Every form that was read lies in its tokens. -/
theorem Form.exists_laidOut {form : Form} {own : List Token}
    (read : Form.ofTokens own = .ok form) :
    ∃ front parts back, form.LaidOut own front parts back := by
  rcases Form.derives_of_ofTokens read with ⟨derivation, literals⟩
  cases derivation with
  | @literal token isLiteral =>
      rcases literals token List.mem_cons_self isLiteral with ⟨value, converts⟩
      obtain rfl := Form.eq_of_reads read (.literal converts)
      exact ⟨[token], [], [], rfl, .nil, List.mem_cons_self, by rintro _ _ _ ⟨⟩⟩
  | @identifier token isName =>
      obtain rfl := Form.eq_of_reads read (.variable isName)
      exact ⟨[token], [], [], rfl, .nil, List.mem_cons_self, by rintro _ _ _ ⟨⟩⟩
  | parenthesized opens compound closes =>
      simp only [List.cons_append, literalsConvert_cons,
        literalsConvert_append] at literals
      exact Form.exists_laidOut_compound read opens compound closes literals.2.1

end ScopedLisp
