import Reckoner.Failure
import Mathlib.Tactic.IntervalCases

/-!
# What is refused when data are taken in

A caller may hand in anything.  What has no value is refused, with a report of one kind for data and
of another for snapshots, and there is one way around the report: a whole number beyond all floats
(`Datum.Huge`) where a number is needed.  It is not looked for before it is converted, and the
conversion fails without a report of its own.

* `Datum.HoldsHuge` says that a datum meets such a number when it is made a value: it is the number,
  or a sequence of three numbers with the number among them.
* `Datum.EntryHuge` says so of an entry of a snapshot, and `Datum.SnapshotHuge` of a snapshot, of
  which the first entry that cannot be read counts.

`Environment.intake` is the theorem: data and snapshots are taken in, or refused with a report of
their kind, unless such a number is met, and if it is met there is no report.
-/

set_option autoImplicit false

namespace Reckoner

/-! ## Whole numbers beyond all floats -/

namespace Datum

/-- A whole number that is beyond all floats. -/
def Huge : Datum → Prop
  | int n => Decimal.floatOfInt? n = none
  | _ => False

/-- The items of a list or a tuple. -/
def items? : Datum → Option (List Datum)
  | list items | tuple items => some items
  | _ => none

/-- A datum that is a number beyond all floats, or is made a vector with one among its numbers. -/
inductive HoldsHuge : Datum → Prop
  | number {d : Datum} (huge : d.Huge) : HoldsHuge d
  | sequence {d a b c : Datum} (items : d.items? = some [a, b, c])
    (numbers : (a.isNumber && b.isNumber && c.isNumber) = true) (huge : a.Huge ∨ b.Huge ∨ c.Huge) :
    HoldsHuge d

/-- The type that an entry of a snapshot tells, a scalar if it tells none. -/
def entryType (fields : List (Key × Datum)) : Datum :=
  (fields.lookup (.text "type")).getD (.text Kind.scalar.name)

/-- What an entry of a snapshot has for a value. -/
def entryRaw (fields : List (Key × Datum)) : Datum :=
  (fields.lookup (.text "value")).getD .null

/-- An entry of a snapshot of which a number that is needed is beyond all floats: the number itself,
or the first component that cannot be read. -/
inductive EntryHuge : Datum → Prop
  | scalar {fields : List (Key × Datum)} (type : entryType fields = .text "scalar")
    (huge : (entryRaw fields).Huge) : EntryHuge (.mapping fields)
  | vector {fields : List (Key × Datum)} {i : Nat} {item : Datum}
    (type : entryType fields = .text "vector") (component : i < 3)
    (before : ∀ j < i, ∃ x, (entryRaw fields).readItem j = .ok x)
    (item? : (entryRaw fields).item? i = some item) (huge : item.Huge) :
    EntryHuge (.mapping fields)

/-- A snapshot of which the first entry that cannot be read is one of these. -/
inductive SnapshotHuge : Datum → Prop
  | entry {before after : List (Key × Datum)} {bad : Key × Datum}
    (readable : ∀ good ∈ before, ∃ v, Environment.readEntry good.1.plain good.2 = .ok v)
    (huge : bad.2.EntryHuge) : SnapshotHuge (.mapping (before ++ bad :: after))

end Datum

/-! ## How taking in ends -/

/-- The failure is a whole number beyond all floats, and nothing else. -/
inductive Failure.Overflow : Failure → Prop
  | intake : Overflow (.intake .tooLarge)
  | snapshot : Overflow (.snapshot .tooLarge)

/-- What is handed in is taken, or it is refused with a report of a kind, unless there is a whole
number beyond all floats; then the failure is just that. -/
inductive Intake {α : Type} (kind : ErrorKind) (huge : Prop) : Except Failure α → Prop
  | taken {a : α} (finite : ¬huge) : Intake kind huge (.ok a)
  | refused {e : Failure} {r : Report} (finite : ¬huge) (report : e.report? = some r)
    (proper : r.kind = kind) : Intake kind huge (.error e)
  | overflow {e : Failure} (met : huge) (overflow : e.Overflow) : Intake kind huge (.error e)

/-- A number beyond all floats has no report. -/
theorem Failure.Overflow.report? {e : Failure} (h : e.Overflow) : e.report? = none := by
  cases h <;> rfl

theorem Intake.map {α β : Type} {kind : ErrorKind} {huge : Prop} {result : Except Failure α}
    (h : Intake kind huge result) (f : α → β) : Intake kind huge (result.map f) := by
  cases h with
  | taken hfinite => exact .taken hfinite
  | refused hfinite hreport hkind => exact .refused hfinite hreport hkind
  | overflow hhuge hoverflow => exact .overflow hhuge hoverflow

/-- How a result ends if it is known when it meets a number beyond all floats, and that all its
other failures have reports of the kind. -/
theorem Intake.of_iff {α ε : Type} {kind : ErrorKind} {huge : Prop} {result : Except ε α}
    {failure : ε → Failure} {tooLarge : ε} (hiff : result = .error tooLarge ↔ huge)
    (hoverflow : (failure tooLarge).Overflow)
    (hreport : ∀ e, result = .error e → e ≠ tooLarge →
      ∃ r, (failure e).report? = some r ∧ r.kind = kind) :
    Intake kind huge (result.mapError failure) := by
  cases result with
  | ok a => exact .taken fun h ↦ nomatch hiff.2 h
  | error e =>
    by_cases he : e = tooLarge
    · exact .overflow (hiff.1 (congrArg _ he)) (he ▸ hoverflow)
    · obtain ⟨r, hr, hkind⟩ := hreport e rfl he
      exact .refused (fun h ↦ he (Except.error.inj (hiff.2 h))) hr hkind

/-! ## Values of data -/

theorem Datum.toFloat_eq_tooLarge_iff {d : Datum} : d.toFloat = .error .tooLarge ↔ d.Huge := by
  cases d with
  | int n =>
    rw [toFloat, Huge]
    cases Decimal.floatOfInt? n <;> simp
  | _ => simp [toFloat, Huge]

/-- A number that is not beyond all floats is one of them. -/
theorem Datum.exists_toFloat_eq_ok {d : Datum} (hnumber : d.isNumber = true) (h : ¬d.Huge) :
    ∃ x, d.toFloat = .ok x := by
  cases d with
  | int n =>
    obtain ⟨x, hx⟩ := Option.ne_none_iff_exists'.1 h
    exact ⟨x, by rw [toFloat, hx]⟩
  | real x => exact ⟨x, rfl⟩
  | _ => cases hnumber

section

variable {α β ε : Type}

theorem map_eq_error_iff {x : Except ε α} {f : α → β} {e : ε} :
    x.map f = .error e ↔ x = .error e := by
  cases x <;> simp [Except.map]

/-- Three computations fail with the first of them that fails. -/
theorem bind_three_eq_error_iff {x y z : Except ε α} {f : α → α → α → β} {e : ε} :
    (do return f (← x) (← y) (← z)) = Except.error e ↔
      x = .error e ∨ ∃ a, x = .ok a ∧ (y = .error e ∨ ∃ b, y = .ok b ∧ z = .error e) := by
  cases x <;> cases y <;> cases z <;> simp [bind, Except.bind, pure, Except.pure]

end

theorem Value.ofItems_eq_tooLarge_iff (d : Datum) {a b c : Datum}
    (hnumbers : (a.isNumber && b.isNumber && c.isNumber) = true) :
    ofItems d [a, b, c] = .error .tooLarge ↔ a.Huge ∨ b.Huge ∨ c.Huge := by
  rw [ofItems, if_pos hnumbers, bind_three_eq_error_iff]
  simp only [Bool.and_eq_true] at hnumbers
  obtain ⟨⟨ha, hb⟩, -⟩ := hnumbers
  by_cases hhuge : a.Huge
  · simp [hhuge, Datum.toFloat_eq_tooLarge_iff]
  · obtain ⟨x, hx⟩ := Datum.exists_toFloat_eq_ok ha hhuge
    by_cases hhuge' : b.Huge
    · simp [hhuge', hx, Datum.toFloat_eq_tooLarge_iff]
    · obtain ⟨y, hy⟩ := Datum.exists_toFloat_eq_ok hb hhuge'
      simp [hhuge, hhuge', hx, hy, Datum.toFloat_eq_tooLarge_iff]

/-- A sequence is converted to floats only if it has three items, and all of them are numbers. -/
theorem Value.holdsHuge_of_ofItems {d : Datum} {items : List Datum} (hd : d.items? = some items)
    (h : ofItems d items = .error .tooLarge) : d.HoldsHuge := by
  match items with
  | [a, b, c] =>
    by_cases hnumbers : (a.isNumber && b.isNumber && c.isNumber) = true
    · exact .sequence hd hnumbers ((ofItems_eq_tooLarge_iff d hnumbers).1 h)
    · rw [ofItems, if_neg hnumbers] at h
      cases h
  | [] | [_] | [_, _] | _ :: _ :: _ :: _ :: _ => cases h

/-- **Which data meet a number beyond all floats** when they are made values. -/
theorem Value.ofDatum_eq_tooLarge_iff (d : Datum) :
    ofDatum d = .error .tooLarge ↔ d.HoldsHuge := by
  constructor
  · intro h
    cases d with
    | int | real => exact .number (Datum.toFloat_eq_tooLarge_iff.1 (map_eq_error_iff.1 h))
    | list | tuple => exact holdsHuge_of_ofItems rfl h
    | null | bool | text | mapping | value => cases h
  · rintro (hhuge | ⟨hitems, hnumbers, hhuge⟩)
    · cases d with
      | int => exact map_eq_error_iff.2 (Datum.toFloat_eq_tooLarge_iff.2 hhuge)
      | _ => exact hhuge.elim
    · cases d with
      | list | tuple =>
        cases hitems
        exact (ofItems_eq_tooLarge_iff _ hnumbers).2 hhuge
      | _ => cases hitems

/-- Every other failure to make a value has a report. -/
theorem IntakeError.exists_report {e : IntakeError} (h : e ≠ .tooLarge) :
    ∃ r, (Failure.intake e).report? = some r ∧ r.kind = .typeConversion := by
  cases e with
  | conversion e => exact ⟨_, rfl, by cases e <;> rfl⟩
  | tooLarge => exact absurd rfl h

theorem Value.intake_ofDatum (d : Datum) :
    Intake .typeConversion d.HoldsHuge ((ofDatum d).mapError .intake) :=
  .of_iff (ofDatum_eq_tooLarge_iff d) .intake fun _ _ he ↦ IntakeError.exists_report he

/-! ## Snapshots -/

theorem Datum.readNumber_eq_tooLarge_iff {d : Datum} :
    d.readNumber = .error .tooLarge ↔ d.Huge := by
  cases d with
  | int n =>
    rw [readNumber, Huge]
    cases Decimal.floatOfInt? n <;> simp
  | text s =>
    rw [readNumber]
    cases Decimal.readFloat? s <;> simp [Huge]
  | _ => simp [readNumber, Huge]

theorem Datum.readItem_eq_tooLarge_iff {d : Datum} {i : Nat} :
    d.readItem i = .error .tooLarge ↔ ∃ item, d.item? i = some item ∧ item.Huge := by
  rw [readItem]
  cases d.item? i <;> simp [readNumber_eq_tooLarge_iff]

namespace Environment

/-- The components of a vector are read up to the first that cannot be. -/
theorem readVector_eq_tooLarge_iff {raw : Datum} :
    readVector raw = .error .tooLarge ↔
      ∃ i < 3, (∀ j < i, ∃ x, raw.readItem j = .ok x) ∧ raw.readItem i = .error .tooLarge := by
  rw [readVector, bind_three_eq_error_iff]
  constructor
  · rintro (h | ⟨x, hx, h | ⟨y, hy, h⟩⟩)
    · exact ⟨0, by decide, by simp, h⟩
    · exact ⟨1, by decide, by simp [hx], h⟩
    · refine ⟨2, by decide, fun j hj ↦ ?_, h⟩
      interval_cases j
      · exact ⟨x, hx⟩
      · exact ⟨y, hy⟩
  · rintro ⟨i, hi, hbefore, h⟩
    interval_cases i
    · exact .inl h
    · obtain ⟨x, hx⟩ := hbefore 0 (by decide)
      exact .inr ⟨x, hx, .inl h⟩
    · obtain ⟨x, hx⟩ := hbefore 0 (by decide)
      obtain ⟨y, hy⟩ := hbefore 1 (by decide)
      exact .inr ⟨x, hx, .inr ⟨y, hy, h⟩⟩

theorem mapError_numberFailure_eq_tooLarge_iff {α : Type} {name : String} {raw : Datum}
    {x : Except NumberError α} :
    x.mapError (numberFailure name raw) = .error .tooLarge ↔ x = .error .tooLarge := by
  rcases x with (_ | _) | a
  · exact iff_of_false nofun nofun
  · exact iff_of_true rfl rfl
  · exact iff_of_false nofun nofun

theorem readEntry_mapping (name : String) (fields : List (Key × Datum)) :
    readEntry name (.mapping fields) =
      match Datum.entryType fields with
      | .text "scalar" =>
        ((Datum.entryRaw fields).readNumber.map .scalar).mapError
          (numberFailure name (Datum.entryRaw fields))
      | .text "vector" =>
        ((readVector (Datum.entryRaw fields)).map .vector).mapError
          (numberFailure name (Datum.entryRaw fields))
      | .text "text" => .ok (.text (Datum.entryRaw fields).plain)
      | type => .error (.unknownType name type) :=
  rfl

/-- Which entries meet a number beyond all floats. -/
theorem readEntry_eq_tooLarge_iff {name : String} {entry : Datum} :
    readEntry name entry = .error .tooLarge ↔ entry.EntryHuge := by
  constructor
  · intro h
    cases entry with
    | mapping fields =>
      rw [readEntry_mapping] at h
      split at h
      · next htype =>
        rw [mapError_numberFailure_eq_tooLarge_iff, map_eq_error_iff] at h
        exact .scalar htype (Datum.readNumber_eq_tooLarge_iff.1 h)
      · next htype =>
        rw [mapError_numberFailure_eq_tooLarge_iff, map_eq_error_iff] at h
        obtain ⟨i, hi, hbefore, h⟩ := readVector_eq_tooLarge_iff.1 h
        obtain ⟨item, hitem, hhuge⟩ := Datum.readItem_eq_tooLarge_iff.1 h
        exact .vector htype hi hbefore hitem hhuge
      · cases h
      · cases h
    | _ => cases h
  · rintro (⟨htype, hhuge⟩ | ⟨htype, hi, hbefore, hitem, hhuge⟩)
    · rw [readEntry_mapping, htype]
      exact mapError_numberFailure_eq_tooLarge_iff.2
        (map_eq_error_iff.2 (Datum.readNumber_eq_tooLarge_iff.2 hhuge))
    · rw [readEntry_mapping, htype]
      refine mapError_numberFailure_eq_tooLarge_iff.2 (map_eq_error_iff.2 ?_)
      exact readVector_eq_tooLarge_iff.2
        ⟨_, hi, hbefore, Datum.readItem_eq_tooLarge_iff.2 ⟨_, hitem, hhuge⟩⟩

theorem readEntries_cons (entry : Key × Datum) (entries : List (Key × Datum)) :
    readEntries (entry :: entries) =
      match readEntry entry.1.plain entry.2 with
      | .ok value => (readEntries entries).map ((entry.1.plain, value) :: ·)
      | .error e => .error e := by
  cases hread : readEntry entry.1.plain entry.2 with
  | error e =>
    simp only [readEntries, List.mapM_cons, hread]
    rfl
  | ok value =>
    cases hrest : readEntries entries with
    | error e =>
      rw [readEntries] at hrest
      simp only [readEntries, List.mapM_cons, hread, hrest]
      rfl
    | ok values =>
      rw [readEntries] at hrest
      simp only [readEntries, List.mapM_cons, hread, hrest]
      rfl

/-- Entries that cannot be read fail with the failure of the first of them. -/
theorem readEntries_eq_error_iff {entries : List (Key × Datum)} {e : SnapshotError} :
    readEntries entries = .error e ↔ ∃ before bad after, entries = before ++ bad :: after ∧
      (∀ good ∈ before, ∃ v, readEntry good.1.plain good.2 = .ok v) ∧
      readEntry bad.1.plain bad.2 = .error e := by
  induction entries with
  | nil => simp [readEntries, pure, Except.pure]
  | cons entry entries ih =>
    rw [readEntries_cons]
    cases hread : readEntry entry.1.plain entry.2 with
    | error e' =>
      show Except.error e' = .error e ↔ _
      constructor
      · intro h
        cases h
        exact ⟨[], entry, entries, rfl, by simp, hread⟩
      · rintro ⟨before, bad, after, heq, hbefore, hbad⟩
        cases before with
        | nil =>
          cases heq
          cases hread.symm.trans hbad
          rfl
        | cons good before =>
          cases heq
          obtain ⟨v, hv⟩ := hbefore _ List.mem_cons_self
          cases hread.symm.trans hv
    | ok value =>
      rw [map_eq_error_iff, ih]
      constructor
      · rintro ⟨before, bad, after, rfl, hbefore, hbad⟩
        exact ⟨entry :: before, bad, after, rfl,
          List.forall_mem_cons.2 ⟨⟨value, hread⟩, hbefore⟩, hbad⟩
      · rintro ⟨before, bad, after, heq, hbefore, hbad⟩
        cases before with
        | nil =>
          cases heq
          cases hread.symm.trans hbad
        | cons good before =>
          cases heq
          exact ⟨before, bad, after, rfl, (List.forall_mem_cons.1 hbefore).2, hbad⟩

theorem readSnapshot_eq_tooLarge_iff {d : Datum} :
    readSnapshot d = .error .tooLarge ↔ d.SnapshotHuge := by
  constructor
  · intro h
    cases d with
    | mapping entries =>
      obtain ⟨before, bad, after, rfl, hbefore, hbad⟩ := readEntries_eq_error_iff.1 h
      exact .entry hbefore (readEntry_eq_tooLarge_iff.1 hbad)
    | _ => cases h
  · rintro ⟨hbefore, hhuge⟩
    exact readEntries_eq_error_iff.2
      ⟨_, _, _, rfl, hbefore, readEntry_eq_tooLarge_iff.2 hhuge⟩

/-- Every other failure to read an entry has a report. -/
theorem exists_report_of_readEntry {name : String} {entry : Datum} {e : SnapshotError}
    (h : readEntry name entry = .error e) (he : e ≠ .tooLarge) :
    ∃ r, (Failure.snapshot e).report? = some r ∧ r.kind = .environment := by
  -- A number that cannot be read is reported for the variable.
  have hnumber {α : Type} {raw : Datum} {x : Except NumberError α}
      (hx : x.mapError (numberFailure name raw) = .error e) :
      ∃ r, (Failure.snapshot e).report? = some r ∧ r.kind = .environment := by
    rcases x with (_ | _) | a
    · cases hx
      exact ⟨_, rfl, rfl⟩
    · cases hx
      exact absurd rfl he
    · cases hx
  cases entry with
  | mapping fields =>
    rw [readEntry_mapping] at h
    split at h
    · exact hnumber h
    · exact hnumber h
    · cases h
    · cases h
      exact ⟨_, rfl, rfl⟩
  | _ =>
    cases h
    exact ⟨_, rfl, rfl⟩

theorem exists_report_of_readSnapshot {d : Datum} {e : SnapshotError}
    (h : readSnapshot d = .error e) (he : e ≠ .tooLarge) :
    ∃ r, (Failure.snapshot e).report? = some r ∧ r.kind = .environment := by
  cases d with
  | mapping entries =>
    obtain ⟨_, _, _, _, _, hbad⟩ := readEntries_eq_error_iff.1 h
    exact exists_report_of_readEntry hbad he
  | _ =>
    cases h
    exact ⟨_, rfl, rfl⟩

theorem intake_readSnapshot (d : Datum) :
    Intake .environment d.SnapshotHuge ((readSnapshot d).mapError .snapshot) :=
  .of_iff readSnapshot_eq_tooLarge_iff .snapshot fun _ ↦ exists_report_of_readSnapshot

/-! ## Environments -/

/-- **What is handed in is taken, or it is refused with a report**, unless it meets a whole number
beyond all floats.  Any datum is made a value, and a variable is set to it, or defined by it if the
name is fresh, or the datum is refused with a report of a failed conversion; any datum is put back
as a snapshot, or refused with a report about variables.  A whole number beyond all floats that is
met on the way has no report, and these are the data that meet one. -/
theorem intake (env : Environment) {name : String} (hfresh : env.has name = false) (d : Datum) :
    Intake .typeConversion d.HoldsHuge ((Value.ofDatum d).mapError .intake) ∧
    (∀ name, Intake .typeConversion d.HoldsHuge ((env.set name d).mapError .intake)) ∧
    Intake .typeConversion d.HoldsHuge ((env.define name d).mapError .ofDefinition) ∧
    Intake .environment d.SnapshotHuge ((env.update d).mapError .snapshot) := by
  have hvalue := Value.intake_ofDatum d
  refine ⟨hvalue, fun name ↦ ?_, ?_, ?_⟩
  · have hset : (env.set name d).mapError .intake =
        ((Value.ofDatum d).mapError Failure.intake).map (env.put name) := by
      rw [set]
      cases Value.ofDatum d <;> rfl
    exact hset ▸ hvalue.map _
  · have hdefine : (env.define name d).mapError .ofDefinition =
        ((Value.ofDatum d).mapError Failure.intake).map (env.create name) := by
      rw [define, hfresh]
      cases Value.ofDatum d <;> rfl
    exact hdefine ▸ hvalue.map _
  · have hupdate : (env.update d).mapError .snapshot =
        ((readSnapshot d).mapError Failure.snapshot).map env.putAll := by
      rw [update]
      cases readSnapshot d <;> rfl
    exact hupdate ▸ (intake_readSnapshot d).map _

/-- A variable is not defined by a number of 401 digits, and there is no report of that. -/
theorem intake_power : ∃ e : Failure,
    (empty.define "x" (.int ((10 ^ 200) ^ 2))).mapError .ofDefinition = .error e ∧ e.Overflow := by
  have hhuge : Datum.Huge (.int ((10 ^ 200) ^ 2)) := by
    have hnone : Decimal.floatOfInt? ((10 ^ 200) ^ 2) = none := by decide +kernel
    exact hnone
  have hfresh : empty.has "x" = false := rfl
  have hintake := (intake empty hfresh (.int ((10 ^ 200) ^ 2))).2.2.1
  generalize (empty.define "x" (.int ((10 ^ 200) ^ 2))).mapError Failure.ofDefinition = result
    at hintake ⊢
  cases hintake with
  | taken hfinite | refused hfinite => exact absurd (.number hhuge) hfinite
  | overflow _ hoverflow => exact ⟨_, rfl, hoverflow⟩

/-- Not all that fails when a datum is made a value is reported. -/
theorem not_forall_reported :
    ¬∀ d : Datum,
      (∃ v, Value.ofDatum d = .ok v) ∨ ∃ e, Value.ofDatum d = .error (.conversion e) := by
  intro h
  have hlarge : Value.ofDatum (.int ((10 ^ 200) ^ 2)) = .error .tooLarge := by
    have hnone : Decimal.floatOfInt? ((10 ^ 200) ^ 2) = none := by decide +kernel
    rw [Value.ofDatum, Datum.toFloat, hnone]
    rfl
  rcases h (.int ((10 ^ 200) ^ 2)) with ⟨v, hv⟩ | ⟨e, he⟩
  · cases hlarge.symm.trans hv
  · cases hlarge.symm.trans he

end Environment

end Reckoner
