import Formulary.Formula.Parse
import Formulary.Proofs.Building
import Formulary.Proofs.Lexing

/-!
# Where the Stages Contradict Each Other

A contradiction between the stages is reported as a fault of the library and never of a formula,
so no text should lead to one. One kind of text does. Function words are recognised without
regard to case in a sense that takes the long s for an `s` and both the dotless and the dotted
capital for an `i`, but the text of the token is only brought into lower case, and the builder
looks it up as it is. This module proves that there is no other kind.

## Conventions

The **foreign** letters are those that a token keeps although its word was recognised. The
dotted capital is not among them: its lower case is an `i` with a separate dot, and that dot is.

The **offences** of a tree are the tokens for which the builder refuses it, in the order in which
the builder meets them. The first of them decides the fault.

## Main results

* `Lexeme.known_iff`: the builder knows a token of a text unless a foreign letter is in it.
* `ParseTree.built_or_blamed`: the first offence is blamed.
* `ParseTree.build_eq_ok_iff`: what the builder returns, and when.
* `judged_iff_not_stumblesOver`: a text leads to a contradiction exactly when a foreign letter is
  the first thing wrong with it.
-/

namespace Formulary.Token

open Text

/-! ### Foreign letters -/

/-- The **foreign letters**: those that function words are recognised in spite of, as they are
after the change to lower case. -/
def foreignLetters : List Char :=
  ['ſ', 'ı', '\u0307']

/-- The letters of a text that become foreign letters. -/
def foreignSpellings : List Char :=
  ['ſ', 'ı', 'İ']

/-- Whether the token is a function with a foreign letter in its text. -/
def Foreign (t : Token) : Prop :=
  t.kind = .function ∧ ∃ c ∈ t.text.toList, c ∈ foreignLetters

/-- Lower case changes ASCII letters only. -/
theorem toLower_eq_of_not_ascii {c x : Char} (h : c.toLower = x) (hx : 128 ≤ x.toNat) : c = x := by
  delta Char.toLower at h
  split at h
  · rename_i hc
    have hlow : c.toNat ≤ 90 := hc.2
    subst h
    have : (c.val + ('a'.val - 'A'.val)).toNat = c.toNat + 32 := by
      have : c.val.toNat ≤ 90 := hlow
      simp only [Char.toNat, UInt32.toNat_add]
      have h32 : ('a'.val - 'A'.val).toNat = 32 := by decide
      omega
    simp only [Char.toNat] at hx this hlow
    omega
  · exact h

/-- A letter in lower case is foreign exactly when it is spelled as one. -/
theorem exists_foreign_iff {c : Char} (hc : isLetter c = true) :
    (∃ x ∈ lowerLetter c, x ∈ foreignLetters) ↔ c ∈ foreignSpellings := by
  constructor
  · rintro ⟨x, hx, hforeign⟩
    rw [lowerLetter] at hx
    split at hx
    · rename_i hdotted
      rw [hdotted]
      decide
    · have hcode : foreignLetters.all (fun x => decide (128 ≤ x.toNat)) = true := by decide
      have hhigh := of_decide_eq_true (List.all_eq_true.1 hcode x hforeign)
      obtain rfl := toLower_eq_of_not_ascii (List.mem_singleton.1 hx).symm hhigh
      simp only [foreignLetters, List.mem_cons, List.not_mem_nil, or_false] at hforeign
      rcases hforeign with rfl | rfl | rfl
      · decide
      · decide
      · -- the combining dot is a mark and no letter
        have hdot : isLetter '\u0307' = false := by decide +kernel
        rw [hdot] at hc
        cases hc
  · have hall : foreignSpellings.all
        (fun c => (lowerLetter c).any foreignLetters.contains) = true := by
      decide
    intro h
    simpa only [List.any_eq_true, List.contains_iff_mem] using List.all_eq_true.1 hall c h

/-- Without foreign spellings, lower case is what function words are recognised by. -/
theorem flatMap_lowerLetter {run : List Char} (h : ∀ c ∈ run, c ∉ foreignSpellings) :
    run.flatMap lowerLetter = run.map foldLetter := by
  induction run with
  | nil => rfl
  | cons c run ih =>
      have hc := h c List.mem_cons_self
      simp only [foreignSpellings, List.mem_cons, List.not_mem_nil, or_false, not_or] at hc
      rw [List.flatMap_cons, List.map_cons, ih fun x hx => h x (List.mem_cons_of_mem c hx)]
      simp [lowerLetter, foldLetter, hc]

/-! ### Known texts -/

/-- The builder knows every function word. -/
theorem known_of_mem_functionWords {t : Token} (hk : t.kind = .function)
    (h : t.text ∈ functionWords) : t.Known := by
  have hall : ∀ w ∈ functionWords,
      (w = "sum" ∨ w = "mult") ∨ ∃ op, (op, w) ∈ functionTexts := by decide
  refine ⟨fun _ => ?_, fun hb => ?_⟩
  · rcases hall _ h with hw | hw
    · exact .inl (by simpa [isAggregate, hk] using hw)
    · exact .inr hw
  · rw [hk] at hb
    cases hb

/-- A text whose letters are all checked not to be foreign has no foreign letter. -/
theorem not_mem_foreignLetters {cs : List Char} (h : cs.all (!foreignLetters.contains ·) = true)
    {c : Char} (hc : c ∈ cs) : c ∉ foreignLetters := by
  simpa only [Bool.not_eq_true', List.contains_eq_mem, decide_eq_false_iff_not] using
    List.all_eq_true.1 h c hc

/-- The builder knows no text with a foreign letter. -/
theorem Foreign.not_known {t : Token} (h : t.Foreign) : t.isAggregate = false ∧ ¬ t.Known := by
  obtain ⟨hk, c, hc, hforeign⟩ := h
  have haggregate : t.isAggregate = false := by
    have hall : ∀ w ∈ ["sum", "mult"], w.toList.all (!foreignLetters.contains ·) = true := by
      decide
    rw [Bool.eq_false_iff]
    intro ha
    simp only [isAggregate, Bool.and_eq_true, Bool.or_eq_true, beq_iff_eq] at ha
    exact not_mem_foreignLetters (hall t.text (by simpa using ha.2)) hc hforeign
  refine ⟨haggregate, fun hknown => ?_⟩
  obtain ⟨op, hop⟩ := (hknown.1 hk).resolve_left (by simp [haggregate])
  have hall : ∀ p ∈ functionTexts, p.2.toList.all (!foreignLetters.contains ·) = true := by
    decide
  exact not_mem_foreignLetters (hall _ hop) hc hforeign

/-- A symbol is known and no function. -/
theorem known_symbol {c : Char} {kind : TokenClass} (h : (c, kind) ∈ symbols) (column : ℕ) :
    (ofLexeme kind [c] column).Known ∧ kind ≠ .function := by
  have hall : ∀ p ∈ symbols, (ofLexeme p.2 [p.1] 0).Known ∧ p.2 ≠ .function := by decide
  exact hall _ h

/-- The function words of a run of letters. -/
theorem mem_functionWords_of_isFunctionWord {run : List Char} (h : isFunctionWord run = true)
    (hrun : ∀ c ∈ run, c ∉ foreignSpellings) :
    String.ofList (run.flatMap lowerLetter) ∈ functionWords := by
  rw [flatMap_lowerLetter hrun]
  simpa [isFunctionWord] using h

/-- **The builder knows the tokens of a text**, except those with a foreign letter. -/
theorem Lexeme.known_iff {c : Char} {rest : List Char} {kind : TokenClass} {n : ℕ}
    (h : Lexeme c rest kind n) (column : ℕ) :
    (ofLexeme kind (c :: rest.take n) column).Known ↔
      ¬ (ofLexeme kind (c :: rest.take n) column).Foreign := by
  have known {t : Token} (hk : t.kind ≠ .function) (h : t.Known) : t.Known ↔ ¬ t.Foreign :=
    ⟨fun _ hf => hk hf.1, fun _ => h⟩
  have operand {t : Token} (hk : t.kind = .operand) : t.Known ↔ ¬ t.Foreign :=
    known (by simp [hk]) (by simp [Known, hk, TokenClass.isBinary, TokenClass.rank])
  cases h with
  | word hc hw =>
      rw [take_length_takeWhile]
      refine ⟨fun hknown hforeign => hforeign.not_known.2 hknown, fun hforeign => ?_⟩
      refine known_of_mem_functionWords rfl (mem_functionWords_of_isFunctionWord hw ?_)
      intro x hx hspelled
      have hletter : isLetter x = true := by
        rcases List.mem_cons.1 hx with rfl | hx
        · exact hc
        · exact List.mem_takeWhile_imp hx
      obtain ⟨y, hy, hyf⟩ := (exists_foreign_iff hletter).2 hspelled
      refine hforeign ⟨rfl, y, ?_, hyf⟩
      simp only [ofLexeme, if_pos, String.toList_ofList, List.mem_flatMap]
      exact ⟨x, hx, hy⟩
  | name => exact operand rfl
  | number => exact operand rfl
  | fraction => exact operand rfl
  | @unequal rest hhead =>
      obtain ⟨rest, rfl⟩ : ∃ tail, rest = '=' :: tail := by
        cases rest with
        | nil => cases hhead
        | cons c tail => exact ⟨tail, by simpa using hhead⟩
      refine known (by simp [ofLexeme]) ?_
      have hne : (ofLexeme .comparison ['!', '='] 0).Known := by decide
      exact hne
  | factorial =>
      have hbang : (ofLexeme .function ['!'] 0).Known := by decide
      exact ⟨fun hknown hforeign => hforeign.not_known.2 hknown, fun _ => hbang⟩
  | symbol h =>
      obtain ⟨hknown, hkind⟩ := known_symbol h column
      exact known hkind hknown

/-- A token with a foreign letter has a foreign spelling. -/
theorem Lexeme.exists_spelling {c : Char} {rest : List Char} {kind : TokenClass} {n column : ℕ}
    (h : Lexeme c rest kind n) (hforeign : (ofLexeme kind (c :: rest.take n) column).Foreign) :
    ∃ x ∈ c :: rest.take n, x ∈ foreignSpellings := by
  obtain ⟨hk, y, hy, hyf⟩ := hforeign
  cases h with
  | word hc hw =>
      rw [take_length_takeWhile] at hy ⊢
      simp only [ofLexeme, if_pos, String.toList_ofList, List.mem_flatMap] at hy
      obtain ⟨x, hx, hxy⟩ := hy
      have hletter : isLetter x = true := by
        rcases List.mem_cons.1 hx with rfl | hx
        · exact hc
        · exact List.mem_takeWhile_imp hx
      exact ⟨x, hx, (exists_foreign_iff hletter).1 ⟨y, hxy, hyf⟩⟩
  | name => cases hk
  | number => cases hk
  | fraction => cases hk
  | unequal => cases hk
  | factorial =>
      have hbang : (ofLexeme .function ['!'] 0).text.toList.all
          (!foreignLetters.contains ·) = true := by
        decide
      exact absurd hyf (not_mem_foreignLetters hbang hy)
  | symbol h => exact absurd hk (known_symbol h column).2

/-! ### The first offence -/

namespace ParseTree

/-- Whether an aggregate of the tree binds the name. -/
def binds (name : String) : ParseTree → Bool
  | operand _ _ => false
  | minus _ _ value => value.binds name
  | call _ _ argument => argument.binds name
  | aggregate _ _ counter _ limit body =>
    counter.text == name || limit.binds name || body.binds name
  | binary _ _ left right => left.binds name || right.binds name

/-- The **offences** of a tree: the functions and operators without an operation and the aggregates
whose counter cannot be bound, in postorder. -/
def offences : ParseTree → List Token
  | operand _ _ => []
  | minus _ _ value => value.offences
  | call f _ argument =>
    argument.offences ++ if ∃ op, (op, f.text) ∈ functionTexts then [] else [f]
  | aggregate f _ counter _ limit body =>
    limit.offences ++ (body.offences ++
      if isNumber counter.text = false ∧ isReserved counter.text = false ∧
        body.binds counter.text = false then [] else [f])
  | binary op _ left right =>
    left.offences ++ (right.offences ++
      if ∃ o, (o, op.text) ∈ operatorTexts then [] else [op])

/-- The faults that an offence leads to: the counter of an aggregate is refused, and any other
offence is a contradiction. -/
def Blames (t : Token) (fault : Fault) : Prop :=
  if t.isAggregate then ∃ name reason, fault = .invalidCounter name reason
  else fault = .inconsistency
    (if t.kind = .function then .unknownFunction t.text else .unknownOperator t.text)

/-- A counter is blamed for an aggregate. -/
theorem blames_aggregate {t : Token} (h : t.isAggregate = true) (name : String)
    (reason : CounterRefusal) : Blames t (.invalidCounter name reason) := by
  rw [Blames, if_pos h]
  exact ⟨name, reason, rfl⟩

/-- The name of a function without an operation is blamed. -/
theorem blames_call {t : Token} (h : t.kind = .function ∧ t.isAggregate = false) :
    Blames t (.inconsistency (.unknownFunction t.text)) := by
  simp [Blames, h]

/-- The symbol of an operator without an operation is blamed. -/
theorem blames_binary {t : Token} (h : t.kind.isBinary = true) :
    Blames t (.inconsistency (.unknownOperator t.text)) := by
  have hk : t.kind ≠ .function := by
    rintro hk
    rw [hk] at h
    cases h
  have ha : t.isAggregate = false := by simp [isAggregate, hk]
  simp [Blames, hk, ha]

/-- Whether a tree is **built**: it has no offences, and it denotes a well scoped formula that binds
what the tree binds. -/
def Built (e : ParseTree) : Prop :=
  e.offences = [] ∧ ∃ f, e.Denotes f ∧ f.WellScoped ∧ ∀ name, f.binds name = e.binds name

/-- Whether a tree is **blamed**: the builder refuses it for the first of its offences. -/
def Blamed (e : ParseTree) : Prop :=
  ∃ t us fault, e.offences = t :: us ∧ e.build = .error fault ∧ Blames t fault

/-- A tree is blamed for the first offence of a part that is blamed, if no other part comes before
it. -/
theorem Blamed.of_part {part e : ParseTree} (h : part.Blamed)
    (hoffences : ∃ us, e.offences = part.offences ++ us)
    (hbuild : ∀ fault, part.build = .error fault → e.build = .error fault) : e.Blamed := by
  obtain ⟨t, us, fault, hsome, he, hblames⟩ := h
  obtain ⟨vs, hoffences⟩ := hoffences
  exact ⟨t, us ++ vs, fault, by rw [hoffences, hsome]; rfl, hbuild fault he, hblames⟩

/-- **A tree is built or blamed.** The parts of a node come first: only where all of them are built
can the node itself be the first offence. -/
theorem built_or_blamed (e : ParseTree) : e.Built ∨ e.Blamed := by
  induction e with
  | operand t ht =>
      refine .inl ⟨rfl, _, denotes_operand ht, ?_⟩
      rw [Formula.ofOperand]
      split <;> exact ⟨trivial, fun _ => rfl⟩
  | minus t ht value ih =>
      rcases ih with ⟨hnone, x, hx, hscoped, hbinds⟩ | hblamed
      · exact .inl ⟨hnone, _, .minus hx, hscoped, hbinds⟩
      · exact .inr (hblamed.of_part ⟨[], by simp [offences]⟩ fun fault he => by rw [build, he])
  | call f hf argument ih =>
      rcases ih with ⟨hnone, x, hx, hscoped, hbinds⟩ | hblamed
      · by_cases hop : ∃ op, (op, f.text) ∈ functionTexts
        · obtain ⟨op, hmem⟩ := id hop
          exact .inl ⟨by simp [offences, hnone, hop], _, .call hmem hx, hscoped, hbinds⟩
        · have hnotfound : UnaryOp.ofFunction? f.text = none :=
            Option.eq_none_iff_forall_ne_some.2 fun op h =>
              hop ⟨op, UnaryOp.ofFunction?_eq_some_iff.1 h⟩
          refine .inr ⟨f, [], _, by simp [offences, hnone, hop], ?_, blames_call hf⟩
          simp only [build, hx.build_eq hscoped, hnotfound]
      · exact .inr (hblamed.of_part ⟨_, rfl⟩ fun fault he => by rw [build, he])
  | aggregate f hf counter hc limit body ihl ihb =>
      rcases ihl with ⟨hlnone, l, hl, hlscoped, hlbinds⟩ | hblamed
      · rcases ihb with ⟨hbnone, b, hb, hbscoped, hbbinds⟩ | hblamed
        · by_cases hcounter : isNumber counter.text = false ∧ isReserved counter.text = false ∧
              body.binds counter.text = false
          · refine .inl ⟨by simp [offences, hlnone, hbnone, hcounter], _, .aggregate hl hb,
              ⟨hlscoped, hbscoped, ?_⟩, fun name => ?_⟩
            · rwa [← Formula.binds_eq_false_iff, hbbinds]
            · simp only [Formula.binds, binds, hlbinds, hbbinds]
          · have hrefused := hcounter
            rw [← hbbinds, Formula.binds_eq_false_iff] at hrefused
            obtain ⟨name, reason, he⟩ := exists_ofAggregate_eq_error f.counting l hrefused
            refine .inr ⟨f, [], _, ?_, ?_, blames_aggregate hf name reason⟩
            · rw [offences, hlnone, hbnone, if_neg hcounter]
              rfl
            · simp only [build, hl.build_eq hlscoped, hb.build_eq hbscoped, he]
        · exact .inr (hblamed.of_part ⟨_, by rw [offences, hlnone]; rfl⟩
            fun fault he => by simp only [build, hl.build_eq hlscoped, he])
      · exact .inr (hblamed.of_part ⟨_, rfl⟩ fun fault he => by rw [build, he])
  | binary op hop left right ihl ihr =>
      rcases ihl with ⟨hlnone, l, hl, hlscoped, hlbinds⟩ | hblamed
      · rcases ihr with ⟨hrnone, r, hr, hrscoped, hrbinds⟩ | hblamed
        · by_cases ho : ∃ o, (o, op.text) ∈ operatorTexts
          · obtain ⟨o, hmem⟩ := id ho
            refine .inl ⟨by simp [offences, hlnone, hrnone, ho], _, .binary hmem hl hr,
              ⟨hlscoped, hrscoped⟩, fun name => ?_⟩
            simp only [Formula.binds, binds, hlbinds, hrbinds]
          · have hnotfound : BinaryOp.ofSymbol? op.text = none :=
              Option.eq_none_iff_forall_ne_some.2 fun o h =>
                ho ⟨o, BinaryOp.ofSymbol?_eq_some_iff.1 h⟩
            refine .inr ⟨op, [], _, by simp [offences, hlnone, hrnone, ho], ?_, blames_binary hop⟩
            simp only [build, hl.build_eq hlscoped, hr.build_eq hrscoped, hnotfound]
        · exact .inr (hblamed.of_part ⟨_, by rw [offences, hlnone]; rfl⟩
            fun fault he => by simp only [build, hl.build_eq hlscoped, he])
      · exact .inr (hblamed.of_part ⟨_, rfl⟩ fun fault he => by rw [build, he])

/-- A tree without offences is built. -/
theorem build_of_offences_nil {e : ParseTree} (h : e.offences = []) : ∃ f, e.build = .ok f := by
  rcases e.built_or_blamed with ⟨-, f, hf, hscoped, -⟩ | ⟨t, us, -, hsome, -⟩
  · exact ⟨f, hf.build_eq hscoped⟩
  · rw [h] at hsome
    cases hsome

/-- A tree with offences is refused, and the first of them is blamed. -/
theorem build_of_offences_cons {e : ParseTree} {t : Token} (h : e.offences.head? = some t) :
    ∃ fault, e.build = .error fault ∧ Blames t fault := by
  rcases e.built_or_blamed with ⟨hnone, -⟩ | ⟨u, us, fault, hsome, he, hblames⟩
  · rw [hnone] at h
    cases h
  · rw [hsome] at h
    cases h
    exact ⟨fault, he, hblames⟩

/-- **The builder returns a formula exactly when the tree denotes it and it is well scoped.** -/
theorem build_eq_ok_iff {e : ParseTree} {f : Formula} :
    e.build = .ok f ↔ e.Denotes f ∧ f.WellScoped := by
  constructor
  · intro h
    rcases e.built_or_blamed with ⟨-, g, hg, hscoped, -⟩ | ⟨t, us, fault, -, he, -⟩
    · rw [hg.build_eq hscoped] at h
      cases h
      exact ⟨hg, hscoped⟩
    · rw [he] at h
      cases h
  · rintro ⟨hf, hscoped⟩
    exact hf.build_eq hscoped

end ParseTree

/-! ### The stages before the builder -/

/-- What the lexer refuses is the author's fault. -/
theorem isUserError_of_scan {column : ℕ} {cs : List Char} {fault : Fault}
    (h : scan column cs = .error fault) : fault.isUserError = true := by
  fun_induction scan column cs with
  | case1 => cases h
  | case2 _ _ _ _ ih => exact ih h
  | case3 => cases h; rfl
  | case4 column c rest _ kind n _ ih =>
      cases hs : scan (column + 1 + n) (rest.drop n) with
      | error fault' => rw [hs] at h; cases h; exact ih hs
      | ok us => rw [hs] at h; cases h

/-- What the lexer refuses is the author's fault, an empty text included. -/
theorem isUserError_of_ofText {text : String} {fault : Fault} (h : ofText text = .error fault) :
    fault.isUserError = true := by
  simp only [ofText, bind, Except.bind] at h
  cases hs : scan 1 text.toList with
  | error fault' =>
      rw [hs] at h
      cases h
      exact isUserError_of_scan hs
  | ok ts =>
      simp only [hs] at h
      split at h
      · cases h; rfl
      · cases h

/-- What the checker refuses in one step is the author's fault. -/
theorem Reading.isUserError_of_step {r : Reading} {t : Token} {fault : Fault}
    (h : r.step t = .error fault) : fault.isUserError = true := by
  rcases fault_of_step h with ⟨wanted, rfl⟩ | rfl | ⟨-, wanted, rfl⟩ <;> rfl

/-- What the checker refuses is the author's fault. -/
theorem isUserError_of_check {r : Reading} {ts : List Token} {fault : Fault}
    (h : check r ts = .error fault) : fault.isUserError = true := by
  induction ts generalizing r with
  | nil =>
      rw [check] at h
      obtain ⟨expecting, awaiting⟩ := r
      cases expecting with
      | value => cases h; rfl
      | opening => cases h; rfl
      | counter => cases h; rfl
      | counterComma => cases h; rfl
      | operator =>
          rcases awaiting with - | ⟨_ | _, outer⟩
          · cases h
          · cases h; rfl
          · cases h; rfl
  | cons t rest ih =>
      rw [check] at h
      split at h
      · cases h
      cases hs : r.step t with
      | error fault' => rw [hs] at h; cases h; exact Reading.isUserError_of_step hs
      | ok next =>
          simp only [hs] at h
          cases hc : check next rest with
          | error fault' => rw [hc] at h; cases h; exact ih hc
          | ok us => rw [hc] at h; cases h

/-- The tokens of a text hold no end mark. -/
theorem withoutEnd_of_scan {column : ℕ} {cs : List Char} {ts : List Token}
    (h : scan column cs = .ok ts) : WithoutEnd ts := by
  intro t ht
  obtain ⟨c, rest, kind, n, column', hl, rfl, -⟩ := exists_lexeme_of_mem_scan h t ht
  cases hl with
  | symbol hs =>
      have hall : ∀ p ∈ symbols, p.2 ≠ .finish := by decide
      exact hall _ hs
  | _ => simp [ofLexeme]

/-- **Either the author is to blame, or the builder decides.** A text that the first stages let
pass has a tree, and the outcome is what the builder makes of that tree. -/
theorem isUserError_or_build (text : String) (declared : Option (List String)) :
    (∃ fault, Formula.ofText text declared = .error fault ∧ fault.isUserError = true) ∨
      ∃ ts vs e, ofText text = .ok ts ∧ Expression 1 ts vs e ∧
        (∀ names ∈ declared, checkVariables names vs = .ok ()) ∧
        Formula.ofText text declared = e.build := by
  cases htext : ofText text with
  | error fault =>
      refine .inl ⟨fault, ?_, isUserError_of_ofText htext⟩
      simp only [Formula.ofText, htext, bind, Except.bind]
  | ok ts =>
      cases hvalid : validate ts with
      | error fault =>
          refine .inl ⟨fault, ?_, isUserError_of_check hvalid⟩
          simp only [Formula.ofText, htext, hvalid, bind, Except.bind]
      | ok vs =>
          have hend := withoutEnd_of_scan (ofText_eq_ok_iff.1 htext).1
          obtain ⟨e, he⟩ := exists_expression_of_derives (derives_of_validate hend hvalid)
          by_cases hdeclared : ∀ names ∈ declared, checkVariables names vs = .ok ()
          · exact .inr ⟨ts, vs, e, rfl, he, hdeclared, he.ofText_eq htext hdeclared⟩
          push Not at hdeclared
          obtain ⟨names, rfl, hnames⟩ := hdeclared
          rw [checkVariables] at hnames
          split at hnames
          · rename_i t hfind
            refine .inl ⟨.unknownVariable t.text names, ?_, rfl⟩
            simp only [Formula.ofText, htext, hvalid, bind, Except.bind, Formula.ofValidated,
              checkVariables, hfind]
          · exact absurd rfl hnames

/-- A formula that is read from a text is the one that the tree of its tokens denotes. -/
theorem exists_denotes_of_ofText {text : String} {declared : Option (List String)} {f : Formula}
    (h : Formula.ofText text declared = .ok f) :
    ∃ ts vs e, ofText text = .ok ts ∧ Expression 1 ts vs e ∧
      (∀ names ∈ declared, checkVariables names vs = .ok ()) ∧ e.Denotes f ∧ f.WellScoped := by
  rcases isUserError_or_build text declared with
    ⟨fault, herror, -⟩ | ⟨ts, vs, e, htext, he, hdeclared, hbuild⟩
  · rw [herror] at h
    cases h
  · rw [hbuild] at h
    obtain ⟨hf, hscoped⟩ := ParseTree.build_eq_ok_iff.1 h
    exact ⟨ts, vs, e, htext, he, hdeclared, hf, hscoped⟩

/-! ### Texts that lead to a contradiction -/

/-- The offences of a tree are tokens of the sequence, aggregates or unknown. -/
theorem Expression.mem_of_mem_offences {k : ℕ} {ts vs : List Token} {e : ParseTree}
    (h : Expression k ts vs e) :
    ∀ t ∈ e.offences, t ∈ ts ∧ (t.isAggregate = true ∨ ¬ t.Known) := by
  induction h with
  | operand => intro t ht; cases ht
  | group _ _ _ ih =>
      intro t ht
      exact ⟨by simp [(ih t ht).1], (ih t ht).2⟩
  | minus _ _ ih =>
      intro t ht
      exact ⟨List.mem_cons_of_mem _ (ih t ht).1, (ih t ht).2⟩
  | @call _ f _ _ _ _ _ hf _ _ _ ih =>
      intro t ht
      rcases List.mem_append.1 ht with ht | ht
      · exact ⟨by simp [(ih t ht).1], (ih t ht).2⟩
      · split at ht
        · cases ht
        · rename_i hop
          obtain rfl := List.mem_singleton.1 ht
          refine ⟨List.mem_cons_self, .inr fun hknown => hop ?_⟩
          exact (hknown.1 hf.1).resolve_left (by simp [hf.2])
  | aggregate hf _ _ _ _ _ _ _ ihl ihb =>
      intro t ht
      rcases List.mem_append.1 ht with ht | ht
      · exact ⟨by simp [(ihl t ht).1], (ihl t ht).2⟩
      rcases List.mem_append.1 ht with ht | ht
      · exact ⟨by simp [(ihb t ht).1], (ihb t ht).2⟩
      · split at ht
        · cases ht
        · obtain rfl := List.mem_singleton.1 ht
          exact ⟨List.mem_cons_self, .inl hf⟩
  | binary hop _ _ _ ihl ihr =>
      intro t ht
      rcases List.mem_append.1 ht with ht | ht
      · exact ⟨List.mem_append_left _ (ihl t ht).1, (ihl t ht).2⟩
      rcases List.mem_append.1 ht with ht | ht
      · exact ⟨by simp [(ihr t ht).1], (ihr t ht).2⟩
      · split at ht
        · cases ht
        · rename_i hnone
          obtain rfl := List.mem_singleton.1 ht
          exact ⟨by simp, .inr fun hknown => hnone (hknown.2 hop)⟩

/-- Whether the builder **stumbles** over a token: the text passes the stages before the builder,
and the first offence of its tree is that token, a function with a foreign letter. -/
def StumblesOver (text : String) (declared : Option (List String)) (t : Token) : Prop :=
  ∃ ts vs e, ofText text = .ok ts ∧ Expression 1 ts vs e ∧
    (∀ names ∈ declared, checkVariables names vs = .ok ()) ∧
    e.offences.head? = some t ∧ t.Foreign

/-- A token that the builder stumbles over is reported as an unknown function. -/
theorem StumblesOver.ofText_eq {text : String} {declared : Option (List String)} {t : Token}
    (h : StumblesOver text declared t) :
    Formula.ofText text declared = .error (.inconsistency (.unknownFunction t.text)) := by
  obtain ⟨ts, vs, e, htext, he, hdeclared, hfirst, hforeign⟩ := h
  obtain ⟨fault, hbuild, hblames⟩ := ParseTree.build_of_offences_cons hfirst
  rw [ParseTree.Blames, if_neg (by simp [hforeign.not_known.1]), if_pos hforeign.1] at hblames
  rw [he.ofText_eq htext hdeclared, hbuild, hblames]

/-- Without a token to stumble over, a text is read or its author is to blame. -/
theorem stumblesOver_or_judged (text : String) (declared : Option (List String)) :
    (∃ t, StumblesOver text declared t) ∨ (∃ f, Formula.ofText text declared = .ok f) ∨
      ∃ fault, Formula.ofText text declared = .error fault ∧ fault.isUserError = true := by
  rcases isUserError_or_build text declared with huser | ⟨ts, vs, e, htext, he, hdeclared, hbuild⟩
  · exact .inr (.inr huser)
  rw [hbuild]
  cases hoffences : e.offences with
  | nil =>
      obtain ⟨f, hf⟩ := ParseTree.build_of_offences_nil hoffences
      exact .inr (.inl ⟨f, hf⟩)
  | cons t us =>
      have hfirst : e.offences.head? = some t := by rw [hoffences]; rfl
      obtain ⟨fault, hfault, hblames⟩ := ParseTree.build_of_offences_cons hfirst
      obtain ⟨hmem, haggregate | hunknown⟩ :=
        he.mem_of_mem_offences t (by rw [hoffences]; exact List.mem_cons_self)
      · rw [ParseTree.Blames, if_pos haggregate] at hblames
        obtain ⟨name, reason, rfl⟩ := hblames
        exact .inr (.inr ⟨_, hfault, rfl⟩)
      · obtain ⟨c, rest, kind, n, column, hl, rfl, -⟩ :=
          exists_lexeme_of_mem_scan (ofText_eq_ok_iff.1 htext).1 t hmem
        have hforeign := not_not.1 (mt (hl.known_iff column).2 hunknown)
        exact .inl ⟨_, ts, vs, e, htext, he, hdeclared, hfirst, hforeign⟩

/-- A text without foreign spellings holds no token to stumble over. -/
theorem not_stumblesOver {text : String} (h : ∀ c ∈ text.toList, c ∉ foreignSpellings)
    (declared : Option (List String)) (t : Token) : ¬ StumblesOver text declared t := by
  rintro ⟨ts, vs, e, htext, he, -, hfirst, hforeign⟩
  have hmem := he.mem_of_mem_offences t (List.mem_of_mem_head? hfirst)
  obtain ⟨c, rest, kind, n, column, hl, rfl, hsub⟩ :=
    exists_lexeme_of_mem_scan (ofText_eq_ok_iff.1 htext).1 t hmem.1
  obtain ⟨x, hx, hspelled⟩ := hl.exists_spelling hforeign
  exact h x (hsub x hx) hspelled

/-- A text that is read holds no token to stumble over. -/
theorem not_stumblesOver_of_ofText {text : String} {declared : Option (List String)} {f : Formula}
    (hf : Formula.ofText text declared = .ok f) (t : Token) : ¬ StumblesOver text declared t := by
  intro ht
  rw [ht.ofText_eq] at hf
  cases hf

/-- The author of a text is to blame for its fault if the text holds no token to stumble over. -/
theorem isUserError_iff_not_stumblesOver {text : String} {declared : Option (List String)}
    {fault : Fault} (hf : Formula.ofText text declared = .error fault) :
    fault.isUserError = true ↔ ∀ t, ¬ StumblesOver text declared t := by
  constructor
  · intro huser t ht
    rw [ht.ofText_eq] at hf
    cases hf
    cases huser
  · intro hnone
    rcases stumblesOver_or_judged text declared with ⟨t, ht⟩ | ⟨f, hok⟩ | ⟨fault', hfault, huser⟩
    · exact absurd ht (hnone t)
    · rw [hf] at hok
      cases hok
    · rw [hf] at hfault
      cases hfault
      exact huser

/-- **The one way into a contradiction.** A text is read, or its author is to blame, exactly when
the builder stumbles over no token of it; a token that it stumbles over is reported as an unknown
function, and nothing else is ever reported as a contradiction. Texts without foreign spellings
are safe, and so are all numbers, in digits of any script. -/
theorem judged_iff_not_stumblesOver (text : String) (declared : Option (List String)) :
    (((∃ f, Formula.ofText text declared = .ok f) ∨
        ∃ fault, Formula.ofText text declared = .error fault ∧ fault.isUserError = true) ↔
      ∀ t, ¬ StumblesOver text declared t) ∧
    (∀ cause, Formula.ofText text declared = .error (.inconsistency cause) ↔
      ∃ t, StumblesOver text declared t ∧ cause = .unknownFunction t.text) ∧
    ((∀ c ∈ text.toList, c ∉ foreignSpellings) → ∀ t, ¬ StumblesOver text declared t) ∧
    ∀ ts, ofText text = .ok ts → ∀ t ∈ ts, isNumber t.text = true →
      (Number.read? t.text).isSome = true := by
  refine ⟨⟨?_, fun h => ?_⟩, fun cause => ⟨fun h => ?_, ?_⟩,
    fun h => not_stumblesOver h declared, fun ts _ t _ hn => ?_⟩
  · rintro (⟨f, hf⟩ | ⟨fault, hfault, huser⟩) t hstumbles
    · rw [hstumbles.ofText_eq] at hf
      cases hf
    · rw [hstumbles.ofText_eq] at hfault
      cases hfault
      cases huser
  · exact (stumblesOver_or_judged text declared).resolve_left fun ⟨t, ht⟩ => h t ht
  · rcases stumblesOver_or_judged text declared with ⟨t, ht⟩ | ⟨f, hf⟩ | ⟨fault, hfault, huser⟩
    · rw [ht.ofText_eq] at h
      exact ⟨t, ht, by cases h; rfl⟩
    · rw [h] at hf
      cases hf
    · rw [h] at hfault
      cases hfault
      cases huser
  · rintro ⟨t, ht, rfl⟩
    exact ht.ofText_eq
  · obtain ⟨digits, exponent, hx⟩ := Number.exists_read?_of_isNumber hn
    rw [hx]
    rfl

/-- A sine spelled with a long s passes every stage before the builder, and then contradicts it. -/
theorem ofText_long_s :
    ¬ ∀ text declared, (∃ f, Formula.ofText text declared = .ok f) ∨
      ∃ fault, Formula.ofText text declared = .error fault ∧ fault.isUserError = true := by
  intro h
  have htokens : ofText "ſin(x)" = .ok [⟨"ſin", .function, some 1⟩, ⟨"(", .structural, some 4⟩,
      ⟨"x", .operand, some 5⟩, ⟨")", .structural, some 6⟩] := by
    decide +kernel
  have hsine : Formula.ofText "ſin(x)" none =
      .error (.inconsistency (.unknownFunction "ſin")) := by
    simp only [Formula.ofText, htokens]
    rfl
  rcases h "ſin(x)" none with ⟨f, hf⟩ | ⟨fault, hfault, huser⟩
  · rw [hsine] at hf
    cases hf
  · rw [hsine] at hfault
    cases hfault
    cases huser

end Formulary.Token
