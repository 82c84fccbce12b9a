import Reckoner.Document.Reading
import Reckoner.Proofs.Document.Escape
import Reckoner.Proofs.Document.Number

/-!
# Documents are read back

Writing a document and reading it go different ways.  A document is written by a recursion into its
items and fields, and it is read in two passes, first the characters and then the tokens, by a reader
that keeps what is open on a stack.  `Document.tokens` stands between the two: it lists the tokens of
a document, again by recursion.

* `scan?_chars` says that the tokens are taken off what is written for a document.  The induction is
  on the document, and on what follows it there is the one condition that it ends a number.
* `foldlM_tokens` says that the reader, where a value is due, comes from the tokens of a document to
  the document.  For the items of an array and the fields of an object that are still to come, the
  induction carries those that were read before.

`Document.Faithful` is what a document has to be for this.  A key that comes twice is lost, because
the reader keeps one value for it, and a float has to be the one that its text is read as.
-/

set_option autoImplicit false

namespace Reckoner.Document

mutual

/-- Each float of a document is read back from its text, and each object has a key only once. -/
def Faithful : Document → Prop
  | null | bool _ | int _ | text _ => True
  | real x => Decimal.ReadsBack x
  | array items => itemsFaithful items
  | object fields => (fields.map Prod.fst).Nodup ∧ fieldsFaithful fields

/-- The items of an array are faithful. -/
def itemsFaithful : List Document → Prop
  | [] => True
  | d :: ds => d.Faithful ∧ itemsFaithful ds

/-- The values of an object are faithful. -/
def fieldsFaithful : List (String × Document) → Prop
  | [] => True
  | (_, d) :: rest => d.Faithful ∧ fieldsFaithful rest

end

/-! ## The tokens of a document -/

mutual

/-- The tokens of a document. -/
def tokens : Document → List Token
  | null => [.atom .null]
  | bool b => [.atom (.bool b)]
  | int n => [.atom (.int n)]
  | real x => [.atom (.real x)]
  | text s => [.text s]
  | array [] => [.openArray, .closeArray]
  | array (d :: ds) => .openArray :: (d.tokens ++ itemTokens ds ++ [.closeArray])
  | object [] => [.openObject, .closeObject]
  | object ((key, d) :: rest) =>
    .openObject :: .text key :: .colon :: (d.tokens ++ fieldTokens rest ++ [.closeObject])

/-- The tokens of the items after the first one. -/
def itemTokens : List Document → List Token
  | [] => []
  | d :: ds => .comma :: (d.tokens ++ itemTokens ds)

/-- The tokens of the fields after the first one. -/
def fieldTokens : List (String × Document) → List Token
  | [] => []
  | (key, d) :: rest => .comma :: .text key :: .colon :: (d.tokens ++ fieldTokens rest)

end

/-! ## From characters to tokens -/

namespace Token

theorem scan?_blank {c : Char} (h : isBlank c = true) (cs : List Char) :
    scan? (c :: cs) = scan? cs := by
  rw [scan?, if_pos h]

theorem scan?_lineStart (indent : Nat) (cs : List Char) :
    scan? (lineStart indent ++ cs) = scan? cs := by
  rw [lineStart, List.cons_append, scan?_blank (by decide)]
  induction indent with
  | zero => rfl
  | succ indent ih => rw [List.replicate_succ, List.cons_append, scan?_blank (by decide), ih]

theorem scan?_next {c : Char} {cs rest : List Char} {t : Token} (hblank : isBlank c = false)
    (h : next? c cs = some (t, rest)) : scan? (c :: cs) = (scan? rest).map (t :: ·) := by
  rw [scan?, if_neg (by simp [hblank])]
  split
  · next token tail hnext =>
    rw [h] at hnext
    cases hnext
    rfl
  · next hnext =>
    rw [h] at hnext
    cases hnext

/-- A character that is a token by itself. -/
theorem scan?_ofChar {c : Char} {t : Token} (hblank : isBlank c = false) (h : ofChar? c = some t)
    (cs : List Char) : scan? (c :: cs) = (scan? cs).map (t :: ·) :=
  scan?_next hblank (by rw [next?, h])

theorem scan?_escapedText (s : String) (cs : List Char) :
    scan? (escapedText s ++ cs) = (scan? cs).map (.text s :: ·) := by
  rw [escapedText, List.cons_append]
  refine scan?_next (by decide) ?_
  have htext := takeText?_escapedChars s.toList cs
  rw [next?, List.append_assoc, List.singleton_append, htext]
  simp [ofChar?]

/-- The characters with which no atom starts. -/
def marks : List Char := [' ', '\t', '\n', '\r', '"', '\x7b', '\x7d', '[', ']', ',', ':']

theorem not_mem_marks {c : Char} {cs : List Char} {read : Document × List Char}
    (h : takeAtom? (c :: cs) = some read) : c ∉ marks := by
  intro hmem
  simp only [marks, List.mem_cons, List.not_mem_nil, or_false] at hmem
  rcases hmem with rfl | rfl | rfl | rfl | rfl | rfl | rfl | rfl | rfl | rfl | rfl <;> cases h

theorem scan?_atom {cs rest : List Char} {d : Document} (h : takeAtom? cs = some (d, rest)) :
    scan? cs = (scan? rest).map (.atom d :: ·) := by
  cases cs with
  | nil => cases h
  | cons c cs =>
    have hmarks := not_mem_marks h
    simp only [marks, List.mem_cons, List.not_mem_nil, or_false, not_or] at hmarks
    have hchar : ofChar? c = none := by
      unfold ofChar?
      split <;> simp_all
    refine scan?_next (by simp [isBlank, hmarks]) ?_
    rw [next?, hchar]
    simp only [if_neg hmarks.2.2.2.2.1, h]
    rfl

theorem ends_cons {c : Char} (hdigit : c.isDigit = false) (hc : c ∉ ['.', 'e', 'E'])
    (cs : List Char) : Ends (c :: cs) := by
  rintro d ⟨⟩
  simp only [List.mem_cons, List.not_mem_nil, or_false, not_or] at hc
  exact ⟨hdigit, hc⟩

end Token

open Reckoner.Document.Token

theorem ends_itemChars (indent : Nat) (ds : List Document) {rest : List Char} (hrest : Ends rest) :
    Ends (itemChars indent ds ++ rest) := by
  cases ds with
  | nil => exact hrest
  | cons d ds => exact ends_cons (by decide) (by decide) _

theorem ends_fieldChars (indent : Nat) (fields : List (String × Document)) {rest : List Char}
    (hrest : Ends rest) : Ends (fieldChars indent fields ++ rest) := by
  match fields with
  | [] => exact hrest
  | (key, d) :: fields => exact ends_cons (by decide) (by decide) _

theorem ends_lineStart (indent : Nat) (rest : List Char) : Ends (lineStart indent ++ rest) :=
  ends_cons (by decide) (by decide) _

mutual

/-- **The tokens of a document are read as they were written**, whatever follows that ends a
number. -/
theorem scan?_chars (d : Document) (hd : d.Faithful) (indent : Nat) {rest : List Char}
    (hrest : Ends rest) : scan? (d.chars indent ++ rest) = (scan? rest).map (d.tokens ++ ·) := by
  match d with
  | null => exact scan?_atom rfl
  | bool true => exact scan?_atom rfl
  | bool false => exact scan?_atom rfl
  | int n => exact scan?_atom (takeAtom?_toString n hrest)
  | real x => exact scan?_atom (takeAtom?_realChars hd hrest)
  | text s => exact scan?_escapedText s rest
  | array [] =>
    simp only [chars, tokens, List.cons_append, List.nil_append]
    rw [scan?_ofChar (by decide) rfl, scan?_ofChar (by decide) rfl]
    simp [Function.comp_def]
  | array (d :: ds) =>
    simp only [chars, tokens, List.cons_append, List.append_assoc, List.nil_append]
    rw [scan?_ofChar (by decide) rfl, scan?_lineStart,
      scan?_chars d hd.1 _ (ends_itemChars _ ds (ends_lineStart _ _)),
      scan?_itemChars ds hd.2 _ (ends_lineStart _ _), scan?_lineStart,
      scan?_ofChar (by decide) rfl]
    simp [Function.comp_def]
  | object [] =>
    simp only [chars, tokens, List.cons_append, List.nil_append]
    rw [scan?_ofChar (by decide) rfl, scan?_ofChar (by decide) rfl]
    simp [Function.comp_def]
  | object ((key, d) :: fields) =>
    simp only [chars, tokens, List.cons_append, List.append_assoc, List.nil_append]
    rw [scan?_ofChar (by decide) rfl, scan?_lineStart, scan?_escapedText,
      scan?_ofChar (by decide) rfl, scan?_blank (by decide),
      scan?_chars d hd.2.1 _ (ends_fieldChars _ fields (ends_lineStart _ _)),
      scan?_fieldChars fields hd.2.2 _ (ends_lineStart _ _), scan?_lineStart,
      scan?_ofChar (by decide) rfl]
    simp [Function.comp_def]

theorem scan?_itemChars (ds : List Document) (hds : itemsFaithful ds) (indent : Nat)
    {rest : List Char} (hrest : Ends rest) :
    scan? (itemChars indent ds ++ rest) = (scan? rest).map (itemTokens ds ++ ·) := by
  match ds with
  | [] => simp [itemChars, itemTokens]
  | d :: ds =>
    simp only [itemChars, itemTokens, List.cons_append, List.append_assoc]
    rw [scan?_ofChar (by decide) rfl, scan?_lineStart,
      scan?_chars d hds.1 indent (ends_itemChars indent ds hrest),
      scan?_itemChars ds hds.2 indent hrest]
    simp [Function.comp_def]

theorem scan?_fieldChars (fields : List (String × Document)) (hfields : fieldsFaithful fields)
    (indent : Nat) {rest : List Char} (hrest : Ends rest) :
    scan? (fieldChars indent fields ++ rest) = (scan? rest).map (fieldTokens fields ++ ·) := by
  match fields with
  | [] => simp [fieldChars, fieldTokens]
  | (key, d) :: fields =>
    simp only [fieldChars, fieldTokens, List.cons_append, List.append_assoc, List.nil_append]
    rw [scan?_ofChar (by decide) rfl, scan?_lineStart, scan?_escapedText, scan?_ofChar (by decide) rfl,
      scan?_blank (by decide),
      scan?_chars d hfields.1 indent (ends_fieldChars indent fields hrest),
      scan?_fieldChars fields hfields.2 indent hrest]
    simp [Function.comp_def]

end

/-! ## From tokens to documents -/

namespace Reader

/-- Where the first item of an array is due, any token but the end is read as the start of a
value. -/
theorem step_itemOrEnd (opened : List Open) {t : Token} (h : t ≠ .closeArray) :
    step ⟨opened, .itemOrEnd⟩ t = step ⟨opened, .value⟩ t := by
  cases t with
  | closeArray => exact absurd rfl h
  | _ => rcases opened with _ | ⟨_ | _, _⟩ <;> rfl

end Reader

/-- No document starts with the end of an array. -/
theorem tokens_eq_cons (d : Document) : ∃ t ts, d.tokens = t :: ts ∧ t ≠ .closeArray := by
  match d with
  | null | bool _ | int _ | real _ | text _ => exact ⟨_, _, rfl, by simp⟩
  | array [] | array (_ :: _) | object [] | object ((_, _) :: _) => exact ⟨_, _, rfl, by simp⟩

theorem foldlM_itemOrEnd (d : Document) (opened : List Open) :
    d.tokens.foldlM Reader.step ⟨opened, .itemOrEnd⟩ =
      d.tokens.foldlM Reader.step ⟨opened, .value⟩ := by
  obtain ⟨t, ts, htokens, ht⟩ := tokens_eq_cons d
  rw [htokens, List.foldlM_cons, List.foldlM_cons, Reader.step_itemOrEnd opened ht]

mutual

/-- **A document is read from its tokens** where a value is due. -/
theorem foldlM_tokens (d : Document) (hd : d.Faithful) (opened : List Open) :
    d.tokens.foldlM Reader.step ⟨opened, .value⟩ = some ⟨opened, .after d⟩ := by
  match d with
  | null | bool _ | int _ | real _ | text _ => rfl
  | array [] => rfl
  | array (d :: ds) =>
    rw [tokens, List.foldlM_cons, List.append_assoc]
    show List.foldlM Reader.step ⟨.array [] :: opened, .itemOrEnd⟩ _ = _
    rw [List.foldlM_append, foldlM_itemOrEnd, foldlM_tokens d hd.1]
    exact foldlM_itemTokens ds hd.2 opened [] d
  | object [] => rfl
  | object ((key, d) :: fields) =>
    simp only [tokens, List.foldlM_cons]
    show List.foldlM Reader.step ⟨.object [] key :: opened, .value⟩ _ = _
    rw [List.append_assoc, List.foldlM_append, foldlM_tokens d hd.2.1]
    exact foldlM_fieldTokens fields hd.2.2 opened [] key d hd.1

/-- The items of an array are read after one another. -/
theorem foldlM_itemTokens (ds : List Document) (hds : itemsFaithful ds) (opened : List Open)
    (items : List Document) (d : Document) :
    (itemTokens ds ++ [Token.closeArray]).foldlM Reader.step
        ⟨.array items :: opened, .after d⟩ =
      some ⟨opened, .after (.array (items ++ d :: ds))⟩ := by
  match ds with
  | [] => rfl
  | d' :: ds =>
    simp only [itemTokens, List.cons_append, List.append_assoc, List.foldlM_cons]
    show List.foldlM Reader.step ⟨.array (items ++ [d]) :: opened, .value⟩ _ = _
    rw [List.foldlM_append, foldlM_tokens d' hds.1]
    have hrest := foldlM_itemTokens ds hds.2 opened (items ++ [d]) d'
    rw [List.append_assoc] at hrest
    exact hrest

/-- The fields of an object are read after one another. -/
theorem foldlM_fieldTokens (fields : List (String × Document)) (hfields : fieldsFaithful fields)
    (opened : List Open) (done : List (String × Document)) (key : String) (d : Document)
    (hkeys : (done.map Prod.fst ++ key :: fields.map Prod.fst).Nodup) :
    (fieldTokens fields ++ [Token.closeObject]).foldlM Reader.step
        ⟨.object done key :: opened, .after d⟩ =
      some ⟨opened, .after (.object (done ++ (key, d) :: fields))⟩ := by
  have hput : putEntry key d done = done ++ [(key, d)] := by
    refine putEntry_of_not_mem fun hmem ↦ ?_
    exact (List.nodup_append.1 hkeys).2.2 key hmem key List.mem_cons_self rfl
  match fields with
  | [] =>
    rw [← hput]
    rfl
  | (key', d') :: fields =>
    simp only [fieldTokens, List.cons_append, List.append_assoc, List.foldlM_cons]
    show List.foldlM Reader.step ⟨.object (putEntry key d done) key' :: opened, .value⟩ _ = _
    rw [hput, List.foldlM_append, foldlM_tokens d' hfields.1]
    have hrest := foldlM_fieldTokens fields hfields.2 opened (done ++ [(key, d)]) key' d'
      (by simpa using hkeys)
    rw [List.append_assoc] at hrest
    exact hrest

end

/-- **What is written is read back**, if no key of an object comes twice and the text of each float
gives the float. -/
theorem parse?_render {d : Document} (h : d.Faithful) : parse? d.render = some d := by
  have hends : Ends [] := by simp [Ends]
  have hscan := scan?_chars d h 0 hends
  rw [List.append_nil] at hscan
  rw [parse?, render, String.toList_ofList, hscan]
  have hnil : scan? [] = some [] := by rw [scan?]
  rw [hnil]
  simp [Reader.initial, foldlM_tokens d h, Reader.result?]

end Reckoner.Document
