import AsyncDataLoader.Failure
import Mathlib.Data.List.Basic
import Mathlib.Tactic.Common

/-!
# Comma-separated values

The writer of Python's `csv` module with a line feed behind every record, and its reader as the
state machine that `_csv` runs over the lines of a text, both in the dialect `excel`. What has been
written is read back.
-/

namespace AsyncDataLoader
namespace Csv

abbrev Record := List (List Char)

def quotechar : Char := '\x22'

/-- The characters that put quotes around a cell. Newer interpreters quote a carriage return too,
although it does not end a record here. -/
def isSpecial (quotesReturn : Bool) (c : Char) : Bool :=
  c = ',' || c = quotechar || c = '\n' || (quotesReturn && c = '\r')

def doubled (cell : List Char) : List Char :=
  cell.flatMap fun c => if c = quotechar then [quotechar,quotechar] else [c]

def writeCell (quotesReturn : Bool) (cell : List Char) : List Char :=
  if cell.any (isSpecial quotesReturn) then quotechar::(doubled cell++[quotechar]) else cell

/-- `writer.writerow`. One empty cell is quoted, to tell it from no cell. -/
def writeRow (quotesReturn : Bool) : Record → List Char
  | [] => ['\n']
  | [[]] => [quotechar,quotechar,'\n']
  | cells => [','].intercalate (cells.map (writeCell quotesReturn))++['\n']

def writeRows (quotesReturn : Bool) (rows : List Record) : List Char :=
  rows.flatMap (writeRow quotesReturn)

inductive State
  | startRecord
  | startField
  | inField
  | inQuotedField
  | quoteInQuotedField
  | eatCrnl
  deriving DecidableEq, Repr

/-- What `csv.Error` says. -/
inductive Error
  | newLine -- "new-line character seen in unquoted field - ..."
  | fieldLimit -- "field larger than field limit ..."
  deriving DecidableEq, Repr

structure Parser where
  state : State
  field : List Char
  fields : Record
  deriving DecidableEq

namespace Parser

def start : Parser := ⟨.startRecord,[],[]⟩

/-- `parse_save_field` -/
def save (p : Parser) (state : State) : Parser := ⟨state,[],p.fields++[p.field]⟩

/-- `parse_add_char` -/
def add (limit : ℕ) (p : Parser) (c : Char) (state : State) : Except Error Parser :=
  if p.field.length ≥ limit then .error .fieldLimit
  else .ok ⟨state,p.field++[c],p.fields⟩

def processStart (limit : ℕ) (p : Parser) (c : Char) : Except Error Parser :=
  if c = '\n' ∨ c = '\r' then .ok (p.save .eatCrnl)
  else if c = quotechar then .ok { p with state := .inQuotedField }
  else if c = ',' then .ok (p.save .startField)
  else p.add limit c .inField

/-- `parse_process_char`; `none` is the end of a line. -/
def process (limit : ℕ) (p : Parser) (c : Option Char) : Except Error Parser :=
  match p.state,c with
  | .startRecord,none => .ok p
  | .startRecord,some c =>
    if c = '\n' ∨ c = '\r' then .ok { p with state := .eatCrnl } else p.processStart limit c
  | .startField,none => .ok (p.save .startRecord)
  | .startField,some c => p.processStart limit c
  | .inField,none => .ok (p.save .startRecord)
  | .inField,some c =>
    if c = '\n' ∨ c = '\r' then .ok (p.save .eatCrnl)
    else if c = ',' then .ok (p.save .startField)
    else p.add limit c .inField
  | .inQuotedField,none => .ok p
  | .inQuotedField,some c =>
    if c = quotechar then .ok { p with state := .quoteInQuotedField }
    else p.add limit c .inQuotedField
  | .quoteInQuotedField,none => .ok (p.save .startRecord)
  | .quoteInQuotedField,some c =>
    if c = quotechar then p.add limit c .inQuotedField
    else if c = ',' then .ok (p.save .startField)
    else if c = '\n' ∨ c = '\r' then .ok (p.save .eatCrnl)
    else p.add limit c .inField
  | .eatCrnl,none => .ok { p with state := .startRecord }
  | .eatCrnl,some c => if c = '\n' ∨ c = '\r' then .ok p else .error .newLine

def processAll (limit : ℕ) (p : Parser) (line : List Char) : Except Error Parser :=
  line.foldlM (fun q c => q.process limit (some c)) p

end Parser

/-- The lines of a file that is opened with `newline=""`, each with what ends it; a carriage return
ends a line unless a line feed follows. -/
def lines (line : List Char) : List Char → List (List Char)
  | [] => if line = [] then [] else [line]
  | c::cs =>
    if c = '\n' then (line++[c])::lines [] cs
    else if line.getLast? = some '\r' then line::lines [c] cs
    else lines (line++[c]) cs

/-- The records that iterating over the reader yields. -/
def readLines (limit : ℕ) (p : Parser) : List (List Char) → Except Error (List Record)
  | [] => .ok (if p.field ≠ [] ∨ p.state = .inQuotedField then [p.fields++[p.field]] else [])
  | line::rest => do
    let inside ← p.processAll limit line
    let behind ← inside.process limit none
    if behind.state = .startRecord then
      let records ← readLines limit .start rest
      return behind.fields::records
    else readLines limit behind rest

def read (limit : ℕ) (text : List Char) : Except Error (List Record) :=
  readLines limit .start (lines [] text)

example : read 9 (writeRows false [["a,b".toList,[],"\x22\r\n".toList],[],[[]]]) =
    .ok [["a,b".toList,[],"\x22\r\n".toList],[],[[]]] := by decide +kernel

section Reading
variable {limit : ℕ} {p p' : Parser} {c : Char} {cs text cell : List Char} {fields : Record}
  {records : List Record}

theorem processAll_concat {line : List Char} {p₀ : Parser}
    (hline : p₀.processAll limit line = .ok p) (hc : p.process limit (some c) = .ok p') :
    p₀.processAll limit (line++[c]) = .ok p' := by
  unfold Parser.processAll at hline ⊢
  rw [List.foldlM_append,hline]
  exact (congrArg (· >>= pure) hc).trans rfl

theorem process_state (h : p.process limit (some c) = .ok p') : p'.state ≠ .startRecord := by
  obtain ⟨state,field,fields⟩ := p
  have hadd : ∀ {state'}, Parser.add limit ⟨state,field,fields⟩ c state' = .ok p' →
      p'.state = state' := by
    intro state' h
    unfold Parser.add at h
    split_ifs at h
    exact congrArg Parser.state (Except.ok.inj h).symm
  have hok : ∀ {q : Parser} {state' : State}, q.state = state' →
      (Except.ok q : Except Error Parser) = .ok p' → p'.state = state' := by
    intro q state' hq h
    rw [← hq,← Except.ok.inj h]
  cases state <;> simp only [Parser.process,Parser.processStart] at h <;> split_ifs at h
  all_goals first
    | exact (hadd h).trans_ne (by simp)
    | exact (hok rfl h).trans_ne (by simp [Parser.save])

/-- The rest of a text, when the parser has come to `p` inside a line. A line feed may still belong
to the line after a carriage return; where a line ends here makes no difference inside quotes. -/
def Reads (limit : ℕ) (p : Parser) (text : List Char) (records : List Record) : Prop :=
  ∀ p₀ line, p₀.processAll limit line = .ok p →
    (line.getLast? = some '\r' → p.state = .inQuotedField) →
      readLines limit p₀ (lines line text) = .ok records

theorem readLines_quoted {line : List Char} {rest : List (List Char)} {p₀ : Parser}
    (hline : p₀.processAll limit line = .ok p) (hp : p.state = .inQuotedField) :
    readLines limit p₀ (line::rest) = readLines limit p rest := by
  obtain ⟨state,field,fields⟩ := p
  subst hp
  rw [readLines,hline]
  rfl

theorem reads_nil : Reads limit .start [] [] := by
  intro p₀ line hline hreturn
  obtain rfl | ⟨line,c,rfl⟩ := List.eq_nil_or_concat line
  · obtain rfl := Except.ok.inj hline
    rfl
  · unfold Parser.processAll at hline
    rw [List.concat_eq_append,List.foldlM_append] at hline
    obtain ⟨q,-,hc⟩ := bind_eq_ok hline
    obtain ⟨q',hq,hpure⟩ := bind_eq_ok hc
    obtain rfl := Except.ok.inj hpure
    exact absurd rfl (process_state hq)

theorem Reads.char (hc : c ≠ '\n') (hprocess : p.process limit (some c) = .ok p')
    (hreturn : c = '\r' → p'.state = .inQuotedField) (h : Reads limit p' cs records) :
    Reads limit p (c::cs) records := by
  intro p₀ line hline hquoted
  rw [lines,if_neg hc]
  split_ifs with hlast
  · rw [readLines_quoted hline (hquoted hlast)]
    have hfirst : p.processAll limit [] = .ok p := rfl
    exact h p [c] (processAll_concat hfirst hprocess) fun heq => hreturn (by simpa using heq)
  · exact h p₀ (line++[c]) (processAll_concat hline hprocess)
      fun heq => hreturn (by simpa using heq)

theorem Reads.quotedLineFeed (hprocess : p.process limit (some '\n') = .ok p')
    (hp : p'.state = .inQuotedField) (h : Reads limit p' cs records) :
    Reads limit p ('\n'::cs) records := by
  intro p₀ line hline _
  rw [lines,if_pos rfl,readLines_quoted (processAll_concat hline hprocess) hp]
  exact h p' [] rfl (by simp)

theorem Reads.lineFeed (hprocess : p.process limit (some '\n') = .ok ⟨.eatCrnl,[],fields⟩)
    (h : Reads limit .start cs records) : Reads limit p ('\n'::cs) (fields::records) := by
  intro p₀ line hline _
  rw [lines,if_pos rfl,readLines,processAll_concat hline hprocess]
  have hrest := h .start [] rfl (by simp)
  change (do
    let records ← readLines limit .start (lines [] cs)
    return fields::records) = _
  rw [hrest]
  rfl

/-- Where a field begins: nothing has been read of it. -/
structure Fresh (p : Parser) (fields : Record) : Prop where
  state : p.state = .startField ∨ p.state = .startRecord
  field : p.field = []
  fields : p.fields = fields

theorem fresh_startField (fields : Record) : Fresh ⟨.startField,[],fields⟩ fields :=
  ⟨.inl rfl,rfl,rfl⟩

theorem fresh_start : Fresh .start [] := ⟨.inr rfl,rfl,rfl⟩

theorem Fresh.process (h : Fresh p fields) (hc : c ≠ '\n' ∧ c ≠ '\r') :
    p.process limit (some c) = p.processStart limit c := by
  obtain ⟨state,field,fields'⟩ := p
  obtain hstate | hstate := h.state
  · subst hstate
    rfl
  · subst hstate
    exact if_neg (by simp [hc])

/-- Where a field ends: what stands behind it saves the field. -/
structure Ended (limit : ℕ) (p : Parser) (fields : Record) : Prop where
  comma : p.process limit (some ',') = .ok ⟨.startField,[],fields⟩
  lineFeed : p.state ≠ .startRecord → p.process limit (some '\n') = .ok ⟨.eatCrnl,[],fields⟩

theorem Fresh.ended (h : Fresh p fields) : Ended limit p (fields++[[]]) where
  comma := by
    rw [h.process (by decide),Parser.processStart,if_neg (by decide),if_neg (by decide),if_pos rfl,
      Parser.save,h.field,h.fields]
  lineFeed := by
    intro hne
    obtain ⟨state,field,fields'⟩ := p
    obtain rfl : state = .startField := h.state.resolve_right hne
    obtain rfl : field = [] := h.field
    obtain rfl : fields' = fields := h.fields
    rfl

theorem add_ok {state : State} (h : p.field.length < limit) :
    p.add limit c state = .ok ⟨state,p.field++[c],p.fields⟩ := if_neg (by omega)

theorem Reads.plain {field : List Char} (hplain : ∀ c ∈ cell, c ≠ ',' ∧ c ≠ '\n' ∧ c ≠ '\r')
    (hlimit : (field++cell).length ≤ limit)
    (h : Reads limit ⟨.inField,field++cell,fields⟩ text records) :
    Reads limit ⟨.inField,field,fields⟩ (cell++text) records := by
  induction cell generalizing field with
  | nil => rwa [List.append_nil] at h
  | cons c cell ih =>
    obtain ⟨⟨hcomma,hfeed,hreturn⟩,hcell⟩ := List.forall_mem_cons.mp hplain
    rw [List.append_cons] at h hlimit
    refine Reads.char hfeed ?_ (fun heq => absurd heq hreturn) (ih hcell hlimit h)
    simp only [List.length_append,List.length_cons] at hlimit
    exact (if_neg (by simp [hfeed,hreturn])).trans ((if_neg hcomma).trans (add_ok (by simp; omega)))

theorem Reads.quoted {field : List Char} (hlimit : (field++cell).length ≤ limit)
    (h : Reads limit ⟨.inQuotedField,field++cell,fields⟩ text records) :
    Reads limit ⟨.inQuotedField,field,fields⟩ (doubled cell++text) records := by
  induction cell generalizing field with
  | nil => rwa [List.append_nil] at h
  | cons c cell ih =>
    rw [List.append_cons] at h hlimit
    have hrest := ih hlimit h
    have hlength : field.length < limit := by
      simp only [List.length_append,List.length_cons] at hlimit
      omega
    by_cases hquote : c = quotechar
    · subst hquote
      have hadd : Parser.process limit ⟨.quoteInQuotedField,field,fields⟩ (some quotechar) =
          .ok ⟨.inQuotedField,field++[quotechar],fields⟩ := by
        simp [Parser.process,Parser.add,hlength]
      have hreturn : quotechar ≠ '\r' := by decide
      refine Reads.char (by decide) rfl (fun heq => absurd heq hreturn) ?_
      exact Reads.char (by decide) hadd (fun heq => absurd heq hreturn) hrest
    · have hadd : Parser.process limit ⟨.inQuotedField,field,fields⟩ (some c) =
          .ok ⟨.inQuotedField,field++[c],fields⟩ := (if_neg hquote).trans (add_ok hlength)
      have htext : doubled (c::cell)++text = c::(doubled cell++text) := by
        simp [doubled,hquote]
      rw [htext]
      by_cases hfeed : c = '\n'
      · subst hfeed
        exact Reads.quotedLineFeed hadd rfl hrest
      · exact Reads.char hfeed hadd (fun _ => rfl) hrest

/-- A cell that was written. Only an empty one may leave the parser at the start of the record. -/
theorem Reads.writeCell {quotesReturn : Bool} (hp : Fresh p fields) (hlimit : cell.length ≤ limit)
    (hreturn : quotesReturn = true ∨ '\r' ∉ cell)
    (h : ∀ q, Ended limit q (fields++[cell]) →
      (q.state = .startRecord → cell = [] ∧ p.state = .startRecord) → Reads limit q text records) :
    Reads limit p (writeCell quotesReturn cell++text) records := by
  unfold Csv.writeCell
  split_ifs with hspecial
  · have hopen : p.process limit (some quotechar) = .ok ⟨.inQuotedField,[],fields⟩ := by
      rw [hp.process (by decide),Parser.processStart,if_neg (by decide),if_pos rfl,← hp.field,
        ← hp.fields]
    have hquote : quotechar ≠ '\r' := by decide
    have hended : Ended limit ⟨.quoteInQuotedField,cell,fields⟩ (fields++[cell]) :=
      ⟨rfl,fun _ => rfl⟩
    rw [List.cons_append,List.append_assoc]
    refine Reads.char (by decide) hopen (fun heq => absurd heq hquote) ?_
    refine Reads.quoted (by simpa using hlimit) ?_
    exact Reads.char (by decide) rfl (fun heq => absurd heq hquote) (h _ hended (by simp))
  · have hplain : ∀ c ∈ cell, c ≠ quotechar ∧ c ≠ ',' ∧ c ≠ '\n' ∧ c ≠ '\r' := by
      intro c hc
      simp only [List.any_eq_true,not_exists,not_and,isSpecial] at hspecial
      have hchar := hspecial c hc
      refine ⟨fun heq => hchar (by simp [heq]),fun heq => hchar (by simp [heq]),
        fun heq => hchar (by simp [heq]),fun heq => ?_⟩
      obtain htrue | hnone := hreturn
      · exact hchar (by simp [heq,htrue])
      · exact hnone (heq ▸ hc)
    cases cell with
    | nil => exact h p hp.ended fun hstate => ⟨rfl,hstate⟩
    | cons c cell =>
      obtain ⟨⟨hquote,hcomma,hfeed,hreturn⟩,hcell⟩ := List.forall_mem_cons.mp hplain
      have hlength : p.field.length < limit := by
        rw [hp.field]
        exact Nat.lt_of_lt_of_le (Nat.succ_pos _) hlimit
      have hfirst : p.process limit (some c) = .ok ⟨.inField,[c],fields⟩ := by
        rw [hp.process ⟨hfeed,hreturn⟩,Parser.processStart,if_neg (by simp [hfeed,hreturn]),
          if_neg hquote,if_neg hcomma,add_ok hlength,hp.field,hp.fields,List.nil_append]
      have hended : Ended limit ⟨.inField,c::cell,fields⟩ (fields++[c::cell]) := ⟨rfl,fun _ => rfl⟩
      refine Reads.char hfeed hfirst (fun heq => absurd heq hreturn) ?_
      exact Reads.plain (fun d hd => (hcell d hd).2) (by simpa using hlimit) (h _ hended (by simp))

/-- A cell that comes back from a reader with this limit on its fields. -/
structure Kept (quotesReturn : Bool) (limit : ℕ) (cell : List Char) : Prop where
  limit : cell.length ≤ limit
  carriageReturn : quotesReturn = true ∨ '\r' ∉ cell

theorem Reads.cells {quotesReturn : Bool} {cells : Record} (hne : cells ≠ [])
    (hkept : ∀ cell ∈ cells, Kept quotesReturn limit cell) (hp : Fresh p fields)
    (hsingle : cells = [[]] → p.state ≠ .startRecord) (h : Reads limit .start text records) :
    Reads limit p ([','].intercalate (cells.map (Csv.writeCell quotesReturn))++['\n']++text)
      ((fields++cells)::records) := by
  induction cells generalizing p fields with
  | nil => exact absurd rfl hne
  | cons cell cells ih =>
    obtain ⟨hcell,hcells⟩ := List.forall_mem_cons.mp hkept
    cases cells with
    | nil =>
      rw [List.map_singleton,List.intercalate_singleton,List.append_assoc]
      refine Reads.writeCell hp hcell.limit hcell.carriageReturn fun q hq hstate => ?_
      have hne : q.state ≠ .startRecord := by
        intro heq
        obtain ⟨rfl,hpstate⟩ := hstate heq
        exact hsingle rfl hpstate
      exact Reads.lineFeed (hq.lineFeed hne) h
    | cons next cells =>
      have hrest := ih (by simp) hcells (fresh_startField (fields++[cell])) (by simp)
      rw [List.append_assoc,List.singleton_append] at hrest
      simp only [List.map_cons] at hrest ⊢
      rw [List.intercalate_cons_cons]
      simp only [List.append_assoc] at hrest ⊢
      refine Reads.writeCell hp hcell.limit hcell.carriageReturn fun q hq _ => ?_
      exact Reads.char (by decide) hq.comma (fun heq => absurd heq (by decide)) hrest

theorem Reads.writeRow {quotesReturn : Bool} {row : Record}
    (hkept : ∀ cell ∈ row, Kept quotesReturn limit cell) (h : Reads limit .start text records) :
    Reads limit .start (writeRow quotesReturn row++text) (row::records) := by
  unfold Csv.writeRow
  split
  · exact Reads.lineFeed rfl h
  · have hquote : quotechar ≠ '\r' := by decide
    refine Reads.char (by decide) rfl (fun heq => absurd heq hquote) ?_
    refine Reads.char (by decide) rfl (fun heq => absurd heq hquote) ?_
    exact Reads.lineFeed rfl h
  · rename_i hne hsingle
    exact Reads.cells hne hkept fresh_start (fun heq => absurd heq hsingle) h

end Reading

/-- What has been written is read back. -/
theorem read_writeRows {quotesReturn : Bool} {limit : ℕ} {rows : List Record}
    (hkept : ∀ row ∈ rows, ∀ cell ∈ row, Kept quotesReturn limit cell) :
    read limit (writeRows quotesReturn rows) = .ok rows := by
  have hreads : Reads limit .start (writeRows quotesReturn rows) rows := by
    induction rows with
    | nil => exact reads_nil
    | cons row rows ih =>
      obtain ⟨hrow,hrows⟩ := List.forall_mem_cons.mp hkept
      exact Reads.writeRow hrow (ih hrows)
  exact hreads .start [] rfl (by simp)

end Csv
end AsyncDataLoader
