import Mathlib.Data.List.Basic
import Mathlib.Data.List.Induction
import Mathlib.Data.List.Nodup
import Mathlib.Data.List.TakeWhile

/-!
# The parser of the sweep

`parse_key_value_output` of the parameter sweep, on a Python `str` as the list of its characters,
and what `str.splitlines` and `str.split` do there.
-/

namespace AsyncDataLoader
namespace KeyValue

/-- The line boundaries of `str.splitlines`. -/
def isLineBreak (c : Char) : Bool :=
  [0x0A,0x0B,0x0C,0x0D,0x1C,0x1D,0x1E,0x85,0x2028,0x2029].contains c.toNat

/-- The lines of the rest of a text after a part of a line. A line feed right after a carriage
return does not end another line. -/
def splitFrom (line : List Char) (afterReturn : Bool) : List Char → List (List Char)
  | [] => if line = [] then [] else [line]
  | c::cs =>
    if afterReturn && c == '\n' then splitFrom line false cs
    else if isLineBreak c then line::splitFrom [] (c == '\r') cs
    else splitFrom (line++[c]) false cs

def splitlines (text : List Char) : List (List Char) := splitFrom [] false text

abbrev Dictionary := List Char → Option (List Char)

def Dictionary.empty : Dictionary := fun _ => none

def Dictionary.assign (values : Dictionary) (key value : List Char) : Dictionary :=
  fun other => if other = key then some value else values other

/-- One turn of the loop of `parse_key_value_output`. -/
def readLine (values : Dictionary) (line : List Char) : Dictionary :=
  if '=' ∈ line then
    let key := line.takeWhile (· ≠ '=')
    let value := (line.dropWhile (· ≠ '=')).tail
    if key ≠ [] ∧ ' ' ∉ key then values.assign key value else values
  else values

def parseKeyValueOutput (output : List Char) : Dictionary :=
  (splitlines output).foldl readLine .empty

def Plain (text : List Char) : Prop := ∀ c ∈ text, isLineBreak c = false

/-- What the parser takes for a key. -/
structure PlainKey (key : List Char) : Prop where
  plain : Plain key
  ne_nil : key ≠ []
  space : ' ' ∉ key
  equals : '=' ∉ key

theorem plain_nil : Plain [] := by simp [Plain]

theorem splitFrom_plain {line : List Char} (h : Plain line) (r : Bool) (text : List Char) :
    ∀ l ∈ splitFrom line r text, Plain l := by
  induction text generalizing line r with
  | nil =>
    intro l hl
    simp only [splitFrom] at hl
    split at hl
    · cases hl
    · rwa [List.mem_singleton.mp hl]
  | cons c cs ih =>
    intro l hl
    simp only [splitFrom] at hl
    split at hl
    · exact ih h false l hl
    · split at hl
      · obtain rfl | hl := List.mem_cons.mp hl
        · exact h
        · exact ih plain_nil _ l hl
      · rename_i hc
        refine ih (fun d hd => ?_) false l hl
        obtain hd | hd := List.mem_append.mp hd
        · exact h d hd
        · rw [List.mem_singleton.mp hd]
          exact Bool.eq_false_iff.mpr hc

def AllPlain (values : Dictionary) : Prop :=
  ∀ key value, values key = some value → PlainKey key ∧ Plain value

theorem readLine_plain {values : Dictionary} {line : List Char} (h : AllPlain values)
    (hline : Plain line) : AllPlain (readLine values line) := by
  unfold readLine
  split
  · dsimp only
    split
    · rename_i hkey
      intro key value hassign
      unfold Dictionary.assign at hassign
      split at hassign
      · rename_i heq
        obtain rfl := Option.some.inj hassign
        subst heq
        refine ⟨⟨fun c hc => hline c ((List.takeWhile_prefix _).subset hc),hkey.1,hkey.2,fun hmem => ?_⟩,
          fun c hc => hline c ?_⟩
        · simpa using List.mem_takeWhile_imp hmem
        · exact (List.dropWhile_suffix _).subset (List.mem_of_mem_tail hc)
      · exact h key value hassign
    · exact h
  · exact h

theorem parse_plain (output : List Char) : AllPlain (parseKeyValueOutput output) := by
  have hlines := splitFrom_plain plain_nil false output
  have hfold : ∀ (lines : List (List Char)) (values : Dictionary), AllPlain values →
      (∀ l ∈ lines, Plain l) → AllPlain (lines.foldl readLine values) := by
    intro lines
    induction lines with
    | nil => exact fun _ h _ => h
    | cons l ls ih =>
      intro values h hall
      obtain ⟨hl,hls⟩ := List.forall_mem_cons.mp hall
      exact ih _ (readLine_plain h hl) hls
  exact hfold _ _ (fun _ _ h => nomatch h) hlines

def printLine (p : List Char × List Char) : List Char := p.1++ '='::p.2++['\n']

theorem splitFrom_append {w : List Char} (h : Plain w) (line rest : List Char) :
    splitFrom line false (w++rest) = splitFrom (line++w) false rest := by
  induction w generalizing line with
  | nil => rw [List.nil_append,List.append_nil]
  | cons c w ih =>
    obtain ⟨hc,hw⟩ := List.forall_mem_cons.mp h
    simp only [List.cons_append,splitFrom,Bool.false_and,Bool.false_eq_true,if_false,hc,ih hw,
      List.append_assoc,List.cons_append,List.nil_append]

theorem splitlines_line {w : List Char} (h : Plain w) (rest : List Char) :
    splitlines (w++ '\n'::rest) = w::splitlines rest := by
  rw [splitlines,splitFrom_append h]
  rfl

theorem plain_pair {p : List Char × List Char} (hkey : PlainKey p.1) (hvalue : Plain p.2) :
    Plain (p.1++ '='::p.2) := by
  intro c hc
  obtain hc | hc := List.mem_append.mp hc
  · exact hkey.plain c hc
  · obtain rfl | hc := List.mem_cons.mp hc
    · rfl
    · exact hvalue c hc

theorem readLine_pair (values : Dictionary) {key : List Char} (value : List Char)
    (h : PlainKey key) : readLine values (key++ '='::value) = values.assign key value := by
  have hkey : ∀ c ∈ key, (decide (c ≠ '=')) = true := by
    intro c hc
    rw [decide_eq_true_eq]
    rintro rfl
    exact h.equals hc
  have htake : (key++ '='::value).takeWhile (· ≠ '=') = key := by
    rw [List.takeWhile_append_of_pos hkey,List.takeWhile_cons_of_neg (by simp),List.append_nil]
  have hdrop : (key++ '='::value).dropWhile (· ≠ '=') = '='::value := by
    rw [List.dropWhile_append_of_pos hkey,List.dropWhile_cons_of_neg (by simp)]
  unfold readLine
  rw [if_pos (by simp)]
  simp only [htake,hdrop,List.tail_cons]
  exact if_pos ⟨h.ne_nil,h.space⟩

theorem parse_printed {ps : List (List Char × List Char)}
    (h : ∀ p ∈ ps, PlainKey p.1 ∧ Plain p.2) :
    parseKeyValueOutput (ps.flatMap printLine) =
      ps.foldl (fun values p => values.assign p.1 p.2) .empty := by
  have hlines : splitlines (ps.flatMap printLine) = ps.map fun p => p.1++ '='::p.2 := by
    induction ps with
    | nil => rfl
    | cons p ps ih =>
      obtain ⟨⟨hkey,hvalue⟩,hps⟩ := List.forall_mem_cons.mp h
      rw [List.flatMap_cons,printLine,List.append_assoc,List.singleton_append,
        splitlines_line (plain_pair hkey hvalue),ih hps,List.map_cons]
  rw [parseKeyValueOutput,hlines,List.foldl_map]
  exact List.foldl_ext _ _ _ fun values p hp => readLine_pair values p.2 (h p hp).1

/-- No pair overwrites another with a different value. -/
def Functional {α β : Type*} (ps : List (α × β)) : Prop :=
  ∀ p ∈ ps, ∀ q ∈ ps, p.1 = q.1 → p.2 = q.2

theorem Functional.of_subset {α β : Type*} {ps qs : List (α × β)} (h : Functional qs)
    (hsub : ∀ p ∈ ps, p ∈ qs) : Functional ps :=
  fun p hp q hq => h p (hsub p hp) q (hsub q hq)

theorem Functional.of_nodup {α β : Type*} {ps : List (α × β)} (h : (ps.map Prod.fst).Nodup) :
    Functional ps :=
  fun _ hp _ hq heq => congrArg Prod.snd (List.inj_on_of_nodup_map h hp hq heq)

theorem Functional.append {α β : Type*} {ps qs : List (α × β)} (hps : Functional ps)
    (hqs : Functional qs) (hne : ∀ p ∈ ps, ∀ q ∈ qs, p.1 ≠ q.1) : Functional (ps++qs) := by
  intro p hp q hq heq
  obtain hp | hp := List.mem_append.mp hp
  · obtain hq | hq := List.mem_append.mp hq
    · exact hps p hp q hq heq
    · exact absurd heq (hne p hp q hq)
  · obtain hq | hq := List.mem_append.mp hq
    · exact absurd heq.symm (hne q hq p hp)
    · exact hqs p hp q hq heq

theorem foldl_assign {ps : List (List Char × List Char)} (h : Functional ps)
    {p : List Char × List Char} (hp : p ∈ ps) :
    ps.foldl (fun values p => values.assign p.1 p.2) Dictionary.empty p.1 = some p.2 := by
  induction ps using List.reverseRecOn with
  | nil => cases hp
  | append_singleton ps q ih =>
    have hq : q ∈ ps++[q] := List.mem_append_right _ List.mem_cons_self
    rw [List.foldl_append,List.foldl_cons,List.foldl_nil,Dictionary.assign]
    split
    · rename_i heq
      rw [h p hp q hq heq]
    · rename_i hne
      obtain hp | hp := List.mem_append.mp hp
      · exact ih (fun r hr t ht => h r (List.mem_append_left _ hr) t (List.mem_append_left _ ht)) hp
      · exact absurd (congrArg Prod.fst (List.mem_singleton.mp hp)) hne

theorem parse_printed_apply {ps : List (List Char × List Char)}
    (h : ∀ p ∈ ps, PlainKey p.1 ∧ Plain p.2) (hfun : Functional ps)
    {p : List Char × List Char} (hp : p ∈ ps) :
    parseKeyValueOutput (ps.flatMap printLine) p.1 = some p.2 := by
  rw [parse_printed h]
  exact foldl_assign hfun hp

end KeyValue
end AsyncDataLoader
