import Reckoner.Proofs.Grammar.Grouping

/-!
# Names in their places

A text without a structural problem has no function that is not called, and no call of a variable.
The check sees this on the tokens, where a call is a name with an opening bracket behind it
(`NamesFit`); the reader needs it on the parse tree (`Term.Fits`).  No name of a tree that stands
alone has a bracket behind it, whatever follows the tree, so that the one gives the other
(`Parses.fits`).

`Parses.allNames_iff` says that the names of the tokens are the names of the tree.
-/

set_option autoImplicit false

namespace Reckoner

/-- The next token is an opening bracket. -/
def Opens (ts : List Placed) : Prop := ∃ position rest, ts = ⟨.opening, position⟩ :: rest

/-- Names before an opening bracket may be called, and the others are not functions. -/
def Scope.NamesFit (scope : Scope) : List Placed → Prop
  | [] => True
  | t :: rest => (∀ text, t.token = .name text →
      (Opens rest → scope.Callable text) ∧ (¬ Opens rest → scope.functions.find? text = none)) ∧
    NamesFit scope rest

@[simp] theorem opens_nil : ¬ Opens [] := by
  rintro ⟨_, _, h⟩
  cases h

@[simp] theorem opens_cons {token : Token} {position : Nat} {rest : List Placed} :
    Opens (⟨token, position⟩ :: rest) ↔ token = .opening := by
  refine ⟨?_, ?_⟩
  · rintro ⟨p, r, h⟩
    cases h
    rfl
  · rintro rfl
    exact ⟨position, rest, rfl⟩

variable {scope : Scope}

namespace Scope

@[simp] theorem namesFit_nil : scope.NamesFit [] := trivial

@[simp] theorem namesFit_name {text : String} {position : Nat} {rest : List Placed} :
    scope.NamesFit (⟨.name text, position⟩ :: rest) ↔
      ((Opens rest → scope.Callable text) ∧
        (¬ Opens rest → scope.functions.find? text = none)) ∧ scope.NamesFit rest := by
  simp [NamesFit]

theorem namesFit_cons {token : Token} {position : Nat} {rest : List Placed}
    (h : ∀ text, token ≠ .name text) :
    scope.NamesFit (⟨token, position⟩ :: rest) ↔ scope.NamesFit rest := by
  simp [NamesFit, h]

end Scope

/-! ## The names of a tree -/

/-- The names of a term that stand alone satisfy one condition, and those that are called, with
their numbers of arguments, another. -/
structure Term.Names (P : String → Prop) (Q : String → Nat → Prop) (t : Term) : Prop where
  /-- The names that stand alone. -/
  bare : ∀ text ∈ t.bare, P text
  /-- The names that are called. -/
  calls : ∀ c ∈ t.calls, Q c.1 c.2

/-- Names that stand alone are not functions, and names that are called may be. -/
def Term.Fits (scope : Scope) : Term → Prop :=
  Term.Names (fun text ↦ scope.functions.find? text = none) fun text _ ↦ scope.Callable text

namespace Term

variable {P : String → Prop} {Q : String → Nat → Prop}

@[simp] theorem names_number {numeral : List Char} {position : Nat} :
    Names P Q (.number numeral position) :=
  ⟨by simp [bare], by simp [calls]⟩

@[simp] theorem names_name {text : String} {position : Nat} :
    Names P Q (.name text position) ↔ P text :=
  ⟨fun h ↦ h.bare text (by simp [bare]), fun h ↦ ⟨by simpa [bare] using h, by simp [calls]⟩⟩

@[simp] theorem names_call {text : String} {position : Nat} {arguments : List Term} :
    Names P Q (.call text position arguments) ↔
      Q text arguments.length ∧ ∀ t ∈ arguments, Names P Q t := by
  refine ⟨fun h ↦ ⟨h.calls (text, arguments.length) (by simp [calls]), fun t ht ↦ ⟨?_, ?_⟩⟩,
    fun ⟨hcall, hall⟩ ↦ ⟨?_, ?_⟩⟩
  · exact fun x hx ↦ h.bare x (mem_bareOfAll.2 ⟨t, ht, hx⟩)
  · exact fun c hc ↦ h.calls c (List.mem_cons_of_mem _ (mem_callsOfAll.2 ⟨t, ht, hc⟩))
  · intro x hx
    obtain ⟨t, ht, hx⟩ := mem_bareOfAll.1 hx
    exact (hall t ht).bare x hx
  · intro c hc
    rcases List.mem_cons.1 hc with rfl | hc
    · exact hcall
    · obtain ⟨t, ht, hc⟩ := mem_callsOfAll.1 hc
      exact (hall t ht).calls c hc

@[simp] theorem names_group {position : Nat} {inner : Term} :
    Names P Q (.group position inner) ↔ Names P Q inner :=
  ⟨fun h ↦ ⟨h.bare, h.calls⟩, fun h ↦ ⟨h.bare, h.calls⟩⟩

@[simp] theorem names_negate {position : Nat} {operand : Term} :
    Names P Q (.negate position operand) ↔ Names P Q operand :=
  ⟨fun h ↦ ⟨h.bare, h.calls⟩, fun h ↦ ⟨h.bare, h.calls⟩⟩

@[simp] theorem names_binary {op : Operator} {position : Nat} {left right : Term} :
    Names P Q (.binary op position left right) ↔ Names P Q left ∧ Names P Q right := by
  refine ⟨fun ⟨hbare, hcalls⟩ ↦ ?_, fun ⟨hl, hr⟩ ↦ ⟨?_, ?_⟩⟩
  · rw [bare, List.forall_mem_append] at hbare
    rw [calls, List.forall_mem_append] at hcalls
    exact ⟨⟨hbare.1, hcalls.1⟩, hbare.2, hcalls.2⟩
  · rw [bare, List.forall_mem_append]
    exact ⟨hl.bare, hr.bare⟩
  · rw [calls, List.forall_mem_append]
    exact ⟨hl.calls, hr.calls⟩

@[simp] theorem names_assign {target : String} {position : Nat} {value : Term} :
    Names P Q (.assign target position value) ↔ P target ∧ Names P Q value := by
  refine ⟨fun ⟨hbare, hcalls⟩ ↦ ?_, fun ⟨ht, hv⟩ ↦ ⟨?_, hv.calls⟩⟩
  · rw [bare, List.forall_mem_cons] at hbare
    exact ⟨hbare.1, hbare.2, hcalls⟩
  · rw [bare, List.forall_mem_cons]
    exact ⟨ht, hv.bare⟩

end Term

/-! ## What the check sees -/

theorem Derives.not_opens_tail {us rest : List Placed} (h : Derives scope .tail us)
    (hrest : ¬ Opens rest) : ¬ Opens (us ++ rest) := by
  cases h with
  | nil => exact hrest
  | cons => simp

/-- The names in a part of an expression are in their places, unless a bracket follows. -/
theorem Derives.namesFit {symbol : Symbol} {ts : List Placed} (h : Derives scope symbol ts) :
    ∀ rest, ¬ Opens rest → scope.NamesFit rest → scope.NamesFit (ts ++ rest) := by
  induction h with
  | number => intro rest _ hfit; exact (Scope.namesFit_cons (by simp)).2 hfit
  | name free =>
    intro rest hrest hfit
    exact Scope.namesFit_name.2 ⟨⟨fun hopens ↦ absurd hopens hrest, fun _ ↦ free⟩, hfit⟩
  | @group _ closing _ _ ih =>
    intro rest _ hfit
    have hinner := ih (⟨.closing, closing⟩ :: rest) (by simp)
      ((Scope.namesFit_cons (by simp)).2 hfit)
    simpa [Scope.namesFit_cons] using hinner
  | callNone find _ =>
    intro rest _ hfit
    have hcallable : scope.Callable _ := .inl (by rw [find]; rfl)
    simpa [Scope.namesFit_cons, hcallable] using hfit
  | @call _ _ _ closing _ callable _ ih =>
    intro rest _ hfit
    have hinner := ih (⟨.closing, closing⟩ :: rest) (by simp)
      ((Scope.namesFit_cons (by simp)).2 hfit)
    simpa [Scope.namesFit_cons, callable] using hinner
  | plain _ ih => exact ih
  | signed _ ih =>
    intro rest hrest hfit
    exact (Scope.namesFit_cons (by simp)).2 (ih rest hrest hfit)
  | nil => intro rest _ hfit; exact hfit
  | cons _ tail iho iht =>
    intro rest hrest hfit
    have hoperand := iho _ (tail.not_opens_tail hrest) (iht rest hrest hfit)
    simpa [Scope.namesFit_cons] using hoperand
  | chain _ tail iho iht =>
    intro rest hrest hfit
    have hoperand := iho _ (tail.not_opens_tail hrest) (iht rest hrest hfit)
    simpa using hoperand
  | value _ ih => exact ih
  | assign free _ ih =>
    intro rest hrest hfit
    have hvalue := ih rest hrest hfit
    simpa [Scope.namesFit_cons, free] using hvalue
  | last _ ih => exact ih
  | @more position _ us _ _ iht ihr =>
    intro rest hrest hfit
    have hstatement := iht (⟨.comma, position⟩ :: (us ++ rest)) (by simp)
      ((Scope.namesFit_cons (by simp)).2 (ihr rest hrest hfit))
    simpa using hstatement

theorem Scope.namesFit_of_problem? {text : String} (h : scope.problem? text = none) :
    scope.NamesFit (Placed.scan 0 text.toList) := by
  have hfit := (derives_of_problem? h).namesFit [] opens_nil namesFit_nil
  rwa [List.append_nil] at hfit

/-! ## What the reader needs -/

theorem Item.fits {items : List Item} {us : List Placed}
    (h : ∀ i ∈ items, ∀ rest, ¬ Opens rest → scope.NamesFit (i.tokens ++ rest) →
      i.term.Fits scope ∧ scope.NamesFit rest)
    (hfit : scope.NamesFit (Item.joined items ++ us)) :
    (∀ i ∈ items, i.term.Fits scope) ∧ scope.NamesFit us := by
  induction items with
  | nil => exact ⟨by simp, hfit⟩
  | cons i items ih =>
    obtain ⟨hi, hitems⟩ := List.forall_mem_cons.1 h
    have hfirst : scope.NamesFit (i.tokens ++ ⟨.comma, i.comma⟩ :: (Item.joined items ++ us)) := by
      simpa [Item.joined] using hfit
    obtain ⟨hterm, hrest⟩ := hi _ (by simp) hfirst
    obtain ⟨hterms, hus⟩ := ih hitems ((Scope.namesFit_cons (by simp)).1 hrest)
    exact ⟨List.forall_mem_cons.2 ⟨hterm, hterms⟩, hus⟩

/-- **The names of a term are in their places** if they are in the tokens. -/
theorem Parses.fits {level : Level} {ts : List Placed} {t : Term} (h : Parses level ts t) :
    ∀ rest, ¬ Opens rest → scope.NamesFit (ts ++ rest) →
      t.Fits scope ∧ scope.NamesFit rest := by
  induction h with
  | number =>
    intro rest _ hfit
    exact ⟨Term.names_number, (Scope.namesFit_cons (by simp)).1 hfit⟩
  | name =>
    intro rest hrest hfit
    obtain ⟨⟨_, hfree⟩, hfit⟩ := Scope.namesFit_name.1 hfit
    exact ⟨Term.names_name.2 (hfree hrest), hfit⟩
  | @group _ closing ts _ _ ih =>
    intro rest _ hfit
    have hinner : scope.NamesFit (ts ++ ⟨.closing, closing⟩ :: rest) := by
      simpa [Scope.namesFit_cons] using hfit
    obtain ⟨hterm, hrest⟩ := ih _ (by simp) hinner
    exact ⟨Term.names_group.2 hterm, (Scope.namesFit_cons (by simp)).1 hrest⟩
  | callNone =>
    intro rest _ hfit
    obtain ⟨⟨hcallable, _⟩, hfit⟩ := Scope.namesFit_name.1 hfit
    exact ⟨Term.names_call.2 ⟨hcallable (by simp), by simp⟩, by
      simpa [Scope.namesFit_cons] using hfit⟩
  | @call _ _ _ closing items ts t _ _ iha ihl =>
    intro rest _ hfit
    obtain ⟨⟨hcallable, _⟩, hfit⟩ := Scope.namesFit_name.1 hfit
    have hitems : scope.NamesFit (Item.joined items ++ (ts ++ ⟨.closing, closing⟩ :: rest)) := by
      simpa [Scope.namesFit_cons] using hfit
    obtain ⟨hterms, hlast⟩ := Item.fits iha hitems
    obtain ⟨hterm, hrest⟩ := ihl _ (by simp) hlast
    refine ⟨Term.names_call.2 ⟨hcallable (by simp), ?_⟩, (Scope.namesFit_cons (by simp)).1 hrest⟩
    rw [List.forall_mem_append, List.forall_mem_map, List.forall_mem_singleton]
    exact ⟨hterms, hterm⟩
  | base _ ih | unsigned _ ih | factor _ ih | addend _ ih | value _ ih => exact ih
  | negate _ ih =>
    intro rest hrest hfit
    obtain ⟨hterm, hfit⟩ := ih rest hrest ((Scope.namesFit_cons (by simp)).1 hfit)
    exact ⟨Term.names_negate.2 hterm, hfit⟩
  | @pow position _ rs _ _ _ _ ihl ihr | @times _ position _ rs _ _ _ _ _ ihl ihr
  | @plus _ position _ rs _ _ _ _ _ ihl ihr =>
    intro rest hrest hfit
    obtain ⟨hl, hfit⟩ := ihl (⟨.operator _, position⟩ :: (rs ++ rest)) (by simp) (by
      simpa using hfit)
    obtain ⟨hr, hfit⟩ := ihr rest hrest ((Scope.namesFit_cons (by simp)).1 hfit)
    exact ⟨Term.names_binary.2 ⟨hl, hr⟩, hfit⟩
  | assign _ ih =>
    intro rest hrest hfit
    obtain ⟨⟨_, hfree⟩, hfit⟩ := Scope.namesFit_name.1 hfit
    obtain ⟨hterm, hfit⟩ := ih rest hrest ((Scope.namesFit_cons (by simp)).1 hfit)
    exact ⟨Term.names_assign.2 ⟨hfree (by simp), hterm⟩, hfit⟩

/-- The statements of a text have their names in their places. -/
theorem Script.Parses.fits {ts : List Placed} {script : Script} (h : Script.Parses ts script)
    (hfit : scope.NamesFit ts) : ∀ t ∈ script.statements, t.Fits scope := by
  obtain @⟨items, _, _, hall, hlast⟩ := h
  obtain ⟨hterms, hfit⟩ := Item.fits (fun i hi ↦ (hall i hi).fits) hfit
  obtain ⟨hterm, _⟩ := hlast.fits [] opens_nil (by rwa [List.append_nil])
  rw [Script.statements, List.forall_mem_append, List.forall_mem_singleton]
  refine ⟨fun t ht ↦ ?_, hterm⟩
  obtain ⟨i, hi, rfl⟩ : ∃ i ∈ items, i.term = t := by simpa using ht
  exact hterms i hi

/-! ## The names of a text -/

/-- All names among tokens satisfy a condition. -/
def AllNames (P : String → Prop) (ts : List Placed) : Prop :=
  ∀ text position, ⟨.name text, position⟩ ∈ ts → P text

section AllNames

variable {P : String → Prop}

@[simp] theorem allNames_append {ts us : List Placed} :
    AllNames P (ts ++ us) ↔ AllNames P ts ∧ AllNames P us := by
  simp [AllNames, or_imp, forall_and]

theorem allNames_cons {token : Token} {position : Nat} {ts : List Placed}
    (h : ∀ text, token ≠ .name text) :
    AllNames P (⟨token, position⟩ :: ts) ↔ AllNames P ts := by
  have hne (text : String) (p : Nat) : ¬ (⟨.name text, p⟩ : Placed) = ⟨token, position⟩ :=
    fun heq ↦ h text (congrArg Placed.token heq).symm
  simp [AllNames, hne]

@[simp] theorem allNames_name {text : String} {position : Nat} {ts : List Placed} :
    AllNames P (⟨.name text, position⟩ :: ts) ↔ P text ∧ AllNames P ts := by
  refine ⟨fun h ↦ ⟨h text position (by simp), fun x p hx ↦ h x p (List.mem_cons_of_mem _ hx)⟩,
    fun ⟨htext, hts⟩ x p hx ↦ ?_⟩
  rcases List.mem_cons.1 hx with heq | hx
  · cases heq
    exact htext
  · exact hts x p hx

@[simp] theorem allNames_nil : AllNames P [] := by simp [AllNames]

theorem allNames_joined {items : List Item} :
    AllNames P (Item.joined items) ↔ ∀ i ∈ items, AllNames P i.tokens := by
  induction items with
  | nil => simp [Item.joined]
  | cons i items ih =>
    rw [List.forall_mem_cons, ← ih]
    simp [Item.joined, allNames_cons]

/-- **The names of the tokens are the names of the tree.** -/
theorem Parses.allNames_iff {level : Level} {ts : List Placed} {t : Term} (h : Parses level ts t) :
    AllNames P ts ↔ t.Names P fun text _ ↦ P text := by
  induction h with
  | number => simp [allNames_cons]
  | name => simp
  | group _ ih => simp [allNames_cons, ih]
  | callNone => simp [allNames_cons]
  | @call _ _ _ _ items _ _ _ _ iha ihl =>
    have hall : AllNames P (Item.joined items) ↔
        ∀ i ∈ items, i.term.Names P fun text _ ↦ P text :=
      allNames_joined.trans (forall₂_congr iha)
    simp [allNames_cons, hall, ihl, or_imp, forall_and]
  | base _ ih | unsigned _ ih | factor _ ih | addend _ ih | value _ ih => exact ih
  | negate _ ih => simp [allNames_cons, ih]
  | pow _ _ ihl ihr | times _ _ _ ihl ihr | plus _ _ _ ihl ihr => simp [allNames_cons, ihl, ihr]
  | assign _ ih => simp [allNames_cons, ih]

/-- The names of a script are those of its statements. -/
theorem Script.forall_names {Q : String → Nat → Prop} {script : Script} :
    (∀ t ∈ script.statements, t.Names P Q) ↔
      (∀ text ∈ script.bare, P text) ∧ ∀ c ∈ script.calls, Q c.1 c.2 := by
  refine ⟨fun h ↦ ⟨fun text htext ↦ ?_, fun c hc ↦ ?_⟩, fun ⟨hbare, hcalls⟩ t ht ↦ ⟨?_, ?_⟩⟩
  · obtain ⟨t, ht, htext⟩ := Term.mem_bareOfAll.1 htext
    exact (h t ht).bare text htext
  · obtain ⟨t, ht, hc⟩ := Term.mem_callsOfAll.1 hc
    exact (h t ht).calls c hc
  · exact fun text htext ↦ hbare text (Term.mem_bareOfAll.2 ⟨t, ht, htext⟩)
  · exact fun c hc ↦ hcalls c (Term.mem_callsOfAll.2 ⟨t, ht, hc⟩)

theorem Script.Parses.allNames_iff {ts : List Placed} {script : Script}
    (h : Script.Parses ts script) :
    AllNames P ts ↔ (∀ text ∈ script.bare, P text) ∧ ∀ c ∈ script.calls, P c.1 := by
  have hnames := @Script.forall_names P (fun text _ ↦ P text) script
  rw [← hnames]
  obtain @⟨items, _, _, hall, hlast⟩ := h
  have hitems : AllNames P (Item.joined items) ↔
      ∀ i ∈ items, i.term.Names P fun text _ ↦ P text :=
    allNames_joined.trans (forall₂_congr fun i hi ↦ (hall i hi).allNames_iff)
  simp [Script.statements, hitems, hlast.allNames_iff, or_imp, forall_and]

end AllNames

/-- A name that is in the tree of a text is a token of the text. -/
theorem Script.Parses.exists_token {ts : List Placed} {script : Script} {text : String}
    (h : Script.Parses ts script) (hmem : text ∈ script.bare ∨ ∃ got, (text, got) ∈ script.calls) :
    ∃ position, ⟨.name text, position⟩ ∈ ts := by
  refine Classical.byContradiction fun hne ↦ ?_
  have hall : AllNames (· ≠ text) ts := by
    rintro _ position htoken rfl
    exact hne ⟨position, htoken⟩
  obtain ⟨hbare, hcalls⟩ := h.allNames_iff.1 hall
  rcases hmem with hmem | ⟨got, hmem⟩
  · exact hbare text hmem rfl
  · exact hcalls _ hmem rfl

end Reckoner
