/-
# The averages of the usage logs

`usage_logs/process.py`. The script goes through a directory of logs and looks for the
last good row of each client's log, from the last row on. It prints the sum of these rows
divided by the number of client logs.

A row is passed over when a field of it is not a number. When a field is missing there is
no number to convert and the script ends with an IndexError, which it does not catch. The
logs are counted whether a good row has been found in them or not. So what is printed is
the average exactly when no row is cut short after the last good one, and when the logs
without a good row do not matter.
-/

import Mathlib.Algebra.BigOperators.Ring.Finset
import Mathlib.Algebra.Order.Field.Rat
import Mathlib.Data.List.DropRight
import Mathlib.Data.List.Infix
import LibBench.Math.Execution
import LibBench.Math.Mean

namespace LibBench.UsageLogs

open LibBench.Math

/-- The fields of a line, as `csv.reader` returns them. -/
abbrev Row := List (List Char)

/-- The conversions of texts, to exact values. A text that does not convert raises a
ValueError. -/
structure Conversions where
  float : List Char → Option ℚ
  int : List Char → Option ℤ

/-- What a statement of the script can raise. -/
inductive Raised
  | valueError
  | indexError
  | zeroDivisionError
  deriving DecidableEq, Repr

/-- The totals. -/
structure Totals where
  numFiles : ℕ := 0
  RSSTotal : ℤ := 0
  CPUTimeTotal : ℚ := 0
  deriving DecidableEq, Repr

/-- The variables of the script. The last row that was read stays in two of them. -/
structure Variables extends Totals where
  rowCPUTime : ℚ := 0
  rowRSS : ℤ := 0
  deriving DecidableEq, Repr

/-- What `os.listdir` names, with the rows when it is a file: those that
`list(csv.reader(csvfile))` has returned, all of them before the script looks at the first
one. A file that cannot be opened, decoded or taken apart into rows ends the script there,
outside of what is said here. -/
structure Entry where
  fileName : List Char
  rows : Option (List Row)
  deriving DecidableEq, Repr

section Script

variable (python : Conversions)

/-- The `try` block. What has been assigned before an exception stays assigned. -/
def readRow (vars : Variables) : Row → Variables × Option Raised
  | [] => (vars, some .indexError)
  | time :: fields =>
      match python.float time with
      | none => (vars, some .valueError)
      | some cpuTime =>
          match fields with
          | [] => ({ vars with rowCPUTime := cpuTime }, some .indexError)
          | memory :: _ =>
              match python.int memory with
              | none => ({ vars with rowCPUTime := cpuTime }, some .valueError)
              | some rss => ({ vars with rowCPUTime := cpuTime, rowRSS := rss }, none)

/-- The loop over the rows, which are given in the order in which the loop takes them. -/
def scanRows (vars : Variables) : List Row → Except Raised Variables
  | [] => .ok vars
  | row :: rows =>
      match readRow python vars row with
      | (vars, some .valueError) => scanRows vars rows
      | (_, some raised) => .error raised
      | (vars, none) =>
          if vars.rowCPUTime = 0 ∨ vars.rowRSS = 0 then scanRows vars rows
          else .ok { vars with
            CPUTimeTotal := vars.CPUTimeTotal + vars.rowCPUTime
            RSSTotal := vars.RSSTotal + vars.rowRSS }

/-- "server". -/
def server : List Char := ['s', 'e', 'r', 'v', 'e', 'r']

/-- One file name. -/
def readEntry (vars : Variables) (entry : Entry) : Except Raised Variables :=
  if server <:+: entry.fileName then .ok vars
  else
    match entry.rows with
    | none => .ok vars
    | some rows =>
        (scanRows python vars rows.reverse).map fun vars =>
          { vars with numFiles := vars.numFiles + 1 }

/-- A division of the script. -/
def divide (total : ℚ) (count : ℕ) : Except Raised ℚ :=
  if count = 0 then .error .zeroDivisionError else .ok (total / count)

/-- The last lines: the average CPU time and the average RSS. -/
def averages (totals : Totals) : Except Raised (ℚ × ℚ) := do
  let RSSAverage ← divide totals.RSSTotal totals.numFiles
  let CPUTimeAverage ← divide totals.CPUTimeTotal totals.numFiles
  return (CPUTimeAverage, RSSAverage)

/-- The script: what it prints, or what ends it. -/
def process (listing : List Entry) : Except Raised (ℚ × ℚ) :=
  match run (readEntry python) {} listing with
  | .ok vars => averages vars.toTotals
  | .error raised => .error raised

end Script

/-- What a good row says. -/
structure Usage where
  cpuTime : ℚ
  rss : ℤ
  cpuTime_ne_zero : cpuTime ≠ 0
  rss_ne_zero : rss ≠ 0
  deriving DecidableEq

/-- The log of a client: the rows of a file whose name does not say that it is the
server's. -/
def Entry.clientLog (entry : Entry) : Option (List Row) :=
  if server <:+: entry.fileName then none else entry.rows

/-- The logs of the clients in a directory. -/
def clientLogs (listing : List Entry) : List (List Row) :=
  listing.filterMap Entry.clientLog

namespace Conversions

variable (python : Conversions)

/-- What a row says when both fields are numbers, and not zero. -/
def usage : Row → Option Usage
  | time :: memory :: _ => do
      let cpuTime ← python.float time
      let rss ← python.int memory
      if h : cpuTime ≠ 0 ∧ rss ≠ 0 then some ⟨cpuTime, rss, h.1, h.2⟩ else none
  | [] | [_] => none

/-- The last good row of a log. -/
def lastUsage (rows : List Row) : Option Usage :=
  (rows.filterMap python.usage).getLast?

/-- The last good rows of the clients that have one. -/
def lastUsages (listing : List Entry) : List Usage :=
  (clientLogs listing).filterMap python.lastUsage

/-- The row ends before a field that is needed: it is blank, or has one field and this
is a number. -/
def cutShort : Row → Bool
  | [] => true
  | [time] => (python.float time).isSome
  | _ :: _ :: _ => false

/-- The rows after the last good one. -/
def rowsAfterLast (rows : List Row) : List Row :=
  rows.rtakeWhile fun row => (python.usage row).isNone

/-- A row is cut short after the last good one. -/
def endsCutShort (rows : List Row) : Bool :=
  (python.rowsAfterLast rows).any python.cutShort

variable {python} {row : Row}

theorem usage_of_cutShort (h : python.cutShort row = true) : python.usage row = none := by
  match row with
  | [] | [_] => rfl
  | _ :: _ :: _ => cases h

/-- The rows that are behind a good one do not matter. -/
theorem endsCutShort_concat_of_usage {usage : Usage} (h : python.usage row = some usage)
    (rows : List Row) : python.endsCutShort (rows ++ [row]) = false := by
  rw [endsCutShort, rowsAfterLast, List.rtakeWhile_concat_neg _ _ _ (by simp [h])]
  rfl

theorem endsCutShort_concat_of_none (h : python.usage row = none) (rows : List Row) :
    python.endsCutShort (rows ++ [row]) = (python.endsCutShort rows || python.cutShort row) := by
  rw [endsCutShort, rowsAfterLast, List.rtakeWhile_concat_pos _ _ _ (by simp [h]),
    List.any_append]
  simp [endsCutShort, rowsAfterLast]

theorem lastUsage_concat (rows : List Row) (row : Row) :
    python.lastUsage (rows ++ [row]) = (python.usage row).or (python.lastUsage rows) := by
  rw [lastUsage, List.filterMap_append, List.getLast?_append]
  cases h : python.usage row <;> simp [h, lastUsage]

end Conversions

namespace Totals

/-- A good row is added. -/
def add (totals : Totals) : Option Usage → Totals
  | none => totals
  | some usage =>
      { totals with
        CPUTimeTotal := totals.CPUTimeTotal + usage.cpuTime
        RSSTotal := totals.RSSTotal + usage.rss }

theorem numFiles_add (totals : Totals) (usage : Option Usage) :
    (totals.add usage).numFiles = totals.numFiles := by
  cases usage <;> rfl

/-- A log is counted, and its last good row is added. -/
def addLog (totals : Totals) (usage : Option Usage) : Totals :=
  { totals.add usage with numFiles := totals.numFiles + 1 }

end Totals

variable {python : Conversions}

/-- What the `try` block makes of a row. A number of another row may stay in the variables,
the totals stay as they are. -/
inductive RowRead (python : Conversions) (vars : Variables) (row : Row) :
    Variables × Option Raised → Prop
  | cutShort {found : Variables} (hcut : python.cutShort row = true) :
      RowRead python vars row (found, some .indexError)
  | unreadable {found : Variables} (hcut : python.cutShort row = false)
      (hnone : python.usage row = none) (htotals : found.toTotals = vars.toTotals) :
      RowRead python vars row (found, some .valueError)
  | zero {found : Variables} (hcut : python.cutShort row = false)
      (hnone : python.usage row = none) (htotals : found.toTotals = vars.toTotals)
      (hzero : found.rowCPUTime = 0 ∨ found.rowRSS = 0) :
      RowRead python vars row (found, none)
  | good (usage : Usage) (husage : python.usage row = some usage) :
      RowRead python vars row ({ vars with rowCPUTime := usage.cpuTime, rowRSS := usage.rss }, none)

theorem rowRead_readRow (vars : Variables) (row : Row) :
    RowRead python vars row (readRow python vars row) := by
  match row with
  | [] => exact .cutShort rfl
  | [time] =>
      cases hfloat : python.float time with
      | none =>
          simp only [readRow, hfloat]
          exact .unreadable (by simp [Conversions.cutShort, hfloat]) rfl rfl
      | some cpuTime =>
          simp only [readRow, hfloat]
          exact .cutShort (by simp [Conversions.cutShort, hfloat])
  | time :: memory :: fields =>
      cases hfloat : python.float time with
      | none =>
          simp only [readRow, hfloat]
          exact .unreadable rfl (by simp [Conversions.usage, hfloat]) rfl
      | some cpuTime =>
          cases hint : python.int memory with
          | none =>
              simp only [readRow, hfloat, hint]
              exact .unreadable rfl (by simp [Conversions.usage, hfloat, hint]) rfl
          | some rss =>
              simp only [readRow, hfloat, hint]
              by_cases hzero : cpuTime = 0 ∨ rss = 0
              · refine .zero rfl ?_ rfl hzero
                simpa [Conversions.usage, hfloat, hint, ← not_or] using hzero
              · obtain ⟨hcpuTime, hrss⟩ := not_or.mp hzero
                refine .good ⟨cpuTime, rss, hcpuTime, hrss⟩ ?_
                simp [Conversions.usage, hfloat, hint, hcpuTime, hrss]

/-- The totals, whatever the last row has left in the variables. -/
def Variables.Shows (vars : Variables) (totals : Totals) : Prop :=
  vars.toTotals = totals

/-- The loop over the rows of a log finds the last good one, unless it meets a row that is
cut short before. -/
theorem sameOutcome_scanRows (vars : Variables) (rows : List Row) :
    SameOutcome Variables.Shows
      (scanRows python vars rows.reverse)
      (if python.endsCutShort rows then .error .indexError
        else .ok (vars.toTotals.add (python.lastUsage rows))) := by
  induction rows using List.reverseRecOn generalizing vars with
  | nil => rfl
  | append_singleton rows row ih =>
      rw [List.reverse_concat, Conversions.lastUsage_concat, scanRows]
      have hread : RowRead python vars row _ := rowRead_readRow vars row
      generalize readRow python vars row = outcome at hread
      cases hread with
      | cutShort hcut =>
          have hnone := Conversions.usage_of_cutShort hcut
          rw [Conversions.endsCutShort_concat_of_none hnone, hcut, Bool.or_true]
          rfl
      | @unreadable found hcut hnone htotals =>
          rw [Conversions.endsCutShort_concat_of_none hnone, hcut, Bool.or_false, hnone,
            Option.none_or, ← htotals]
          exact ih found
      | @zero found hcut hnone htotals hzero =>
          rw [Conversions.endsCutShort_concat_of_none hnone, hcut, Bool.or_false, hnone,
            Option.none_or, ← htotals]
          simp only [if_pos hzero]
          exact ih found
      | good usage husage =>
          have hgood : ¬ (usage.cpuTime = 0 ∨ usage.rss = 0) :=
            not_or.mpr ⟨usage.cpuTime_ne_zero, usage.rss_ne_zero⟩
          rw [Conversions.endsCutShort_concat_of_usage husage, husage, Option.some_or]
          simp only [if_neg hgood]
          rfl

/-- One file name, as far as the totals go. -/
def countEntry (python : Conversions) (totals : Totals) (entry : Entry) : Except Raised Totals :=
  match entry.clientLog with
  | none => .ok totals
  | some rows =>
      if python.endsCutShort rows then .error .indexError
      else .ok (totals.addLog (python.lastUsage rows))

theorem sameOutcome_readEntry (vars : Variables) (entry : Entry) :
    SameOutcome Variables.Shows
      (readEntry python vars entry) (countEntry python vars.toTotals entry) := by
  by_cases hserver : server <:+: entry.fileName
  · rw [readEntry, countEntry, Entry.clientLog, if_pos hserver, if_pos hserver]
    rfl
  · rw [readEntry, countEntry, Entry.clientLog, if_neg hserver, if_neg hserver]
    cases entry.rows with
    | none => rfl
    | some rows =>
        have hscan : SameOutcome Variables.Shows (scanRows python vars rows.reverse) _ :=
          sameOutcome_scanRows vars rows
        cases hcut : python.endsCutShort rows with
        | true =>
            rw [hcut, if_pos rfl] at hscan
            simp [hscan.eq_error rfl, SameOutcome, Except.map, hcut]
        | false =>
            rw [hcut, if_neg Bool.false_ne_true] at hscan
            obtain ⟨found, hfound, hshows⟩ := hscan.exists_eq_ok rfl
            have htotals : found.toTotals = vars.toTotals.add (python.lastUsage rows) := hshows
            have hcount : found.numFiles = vars.numFiles := by
              rw [htotals, Totals.numFiles_add]
            simp [hfound, SameOutcome, Except.map, Variables.Shows, hcut, Totals.addLog, ← htotals,
              hcount]

/-- What is added up over some logs. -/
def totalsOf (python : Conversions) (logs : List (List Row)) : Totals where
  numFiles := logs.length
  RSSTotal := ((logs.filterMap python.lastUsage).map Usage.rss).sum
  CPUTimeTotal := ((logs.filterMap python.lastUsage).map Usage.cpuTime).sum

theorem foldl_addLog (totals : Totals) (logs : List (List Row)) :
    logs.foldl (fun totals rows => totals.addLog (python.lastUsage rows)) totals =
      { numFiles := totals.numFiles + (totalsOf python logs).numFiles
        RSSTotal := totals.RSSTotal + (totalsOf python logs).RSSTotal
        CPUTimeTotal := totals.CPUTimeTotal + (totalsOf python logs).CPUTimeTotal } := by
  induction logs generalizing totals with
  | nil => simp [totalsOf]
  | cons rows logs ih =>
      rw [List.foldl_cons, ih]
      cases hlast : python.lastUsage rows with
      | none => simp [totalsOf, Totals.addLog, Totals.add, hlast, add_left_comm, add_comm]
      | some usage =>
          simp [totalsOf, Totals.addLog, Totals.add, hlast, add_assoc, add_left_comm, add_comm]

theorem run_countEntry (totals : Totals) (listing : List Entry) :
    run (countEntry python) totals listing =
      if (clientLogs listing).any python.endsCutShort then .error .indexError
      else .ok ((clientLogs listing).foldl
        (fun totals rows => totals.addLog (python.lastUsage rows)) totals) := by
  induction listing generalizing totals with
  | nil => rfl
  | cons entry listing ih =>
      rw [run, countEntry]
      cases hlog : entry.clientLog with
      | none =>
          rw [clientLogs, List.filterMap_cons_none hlog]
          exact ih totals
      | some rows =>
          rw [clientLogs, List.filterMap_cons_some hlog, List.any_cons, List.foldl_cons]
          cases hcut : python.endsCutShort rows with
          | true => simp [hcut]
          | false => simpa [hcut, clientLogs] using ih (totals.addLog (python.lastUsage rows))

/-- What the script prints is made of the last good rows, whatever else is in the logs. -/
theorem process_eq (python : Conversions) (listing : List Entry) :
    process python listing =
      if (clientLogs listing).any python.endsCutShort then .error .indexError
      else averages (totalsOf python (clientLogs listing)) := by
  have hrun : SameOutcome Variables.Shows
      (run (readEntry python) {} listing)
      (run (countEntry python) {} listing) := by
    have hstart : Variables.Shows {} {} := rfl
    refine sameOutcome_run (fun vars totals entry htotals => ?_) hstart listing
    obtain rfl : vars.toTotals = totals := htotals
    exact sameOutcome_readEntry vars entry
  rw [run_countEntry, foldl_addLog] at hrun
  rw [process]
  cases hcut : (clientLogs listing).any python.endsCutShort with
  | true =>
      rw [hcut, if_pos rfl] at hrun
      rw [hrun.eq_error rfl, if_pos rfl]
  | false =>
      rw [hcut, if_neg Bool.false_ne_true] at hrun
      obtain ⟨found, hfound, hshows⟩ := hrun.exists_eq_ok rfl
      have htotals : found.toTotals = totalsOf python (clientLogs listing) := by
        simpa [Variables.Shows] using hshows
      simp [hfound, htotals]

theorem totalsOf_of_perm {logs others : List (List Row)} (h : others.Perm logs) :
    totalsOf python others = totalsOf python logs := by
  have hgood := h.filterMap python.lastUsage
  simp only [totalsOf, h.length_eq, (hgood.map Usage.rss).sum_eq, (hgood.map Usage.cpuTime).sum_eq]

/-- The order in which the files are listed does not matter. -/
theorem process_of_perm {listing other : List Entry} (h : other.Perm listing) :
    process python other = process python listing := by
  have hlogs : (clientLogs other).Perm (clientLogs listing) := h.filterMap Entry.clientLog
  rw [process_eq, process_eq, hlogs.any_eq, totalsOf_of_perm hlogs]

/-- The script is not ended by a row. When there are good rows it prints the mean of the
last ones, in whatever order the files are listed. -/
structure AveragesTruly (python : Conversions) (listing : List Entry) : Prop where
  rows : ∀ raised, process python listing = .error raised → raised = .zeroDivisionError
  mean : python.lastUsages listing ≠ [] → ∀ other : List Entry, other.Perm listing →
    process python other = .ok
      (mean ((python.lastUsages listing).map Usage.cpuTime),
        mean ((python.lastUsages listing).map fun usage => (usage.rss : ℚ)))

theorem averages_of_numFiles {totals : Totals} (h : totals.numFiles ≠ 0) :
    averages totals = .ok (totals.CPUTimeTotal / totals.numFiles,
      (totals.RSSTotal : ℚ) / totals.numFiles) := by
  simp [averages, divide, h, pure, Except.pure, bind, Except.bind]

theorem eq_zeroDivisionError_of_averages {totals : Totals} {raised : Raised}
    (h : averages totals = .error raised) : raised = .zeroDivisionError := by
  by_cases hfiles : totals.numFiles = 0
  · simpa [averages, divide, hfiles, bind, Except.bind, eq_comm] using h
  · rw [averages_of_numFiles hfiles] at h
    cases h

theorem lastUsage_eq_none_iff {rows : List Row} :
    python.lastUsage rows = none ↔ ∀ row ∈ rows, python.usage row = none := by
  rw [Conversions.lastUsage, List.getLast?_eq_none_iff, List.filterMap_eq_nil_iff]

theorem lastUsages_eq_nil_iff {listing : List Entry} :
    python.lastUsages listing = [] ↔
      ∀ rows ∈ clientLogs listing, ∀ row ∈ rows, python.usage row = none := by
  simp only [Conversions.lastUsages, List.filterMap_eq_nil_iff, lastUsage_eq_none_iff]

/-- The two counts agree when every log has a good row. -/
theorem length_clientLogs_eq_iff {listing : List Entry} :
    (clientLogs listing).length = (python.lastUsages listing).length ↔
      ∀ rows ∈ clientLogs listing, ∃ row ∈ rows, python.usage row ≠ none := by
  rw [eq_comm, Conversions.lastUsages, List.filterMap_length_eq_length]
  refine forall₂_congr fun rows _ => ?_
  rw [Option.isSome_iff_ne_none, ne_eq, lastUsage_eq_none_iff]
  push Not
  rfl

theorem any_endsCutShort_eq_false_iff {logs : List (List Row)} :
    logs.any python.endsCutShort = false ↔
      ∀ rows ∈ logs, ∀ row ∈ python.rowsAfterLast rows, python.cutShort row = false := by
  simp [Conversions.endsCutShort]

/-- Only a row that is cut short ends the script. -/
theorem rows_iff {listing : List Entry} :
    (∀ raised, process python listing = .error raised → raised = .zeroDivisionError) ↔
      (clientLogs listing).any python.endsCutShort = false := by
  rw [process_eq]
  cases (clientLogs listing).any python.endsCutShort with
  | true => simp
  | false => simpa using fun raised => eq_zeroDivisionError_of_averages

/-- The sums are divided by the number of logs. -/
theorem mean_iff {listing : List Entry}
    (hrows : (clientLogs listing).any python.endsCutShort = false)
    (hgood : python.lastUsages listing ≠ []) :
    process python listing = .ok
        (mean ((python.lastUsages listing).map Usage.cpuTime),
          mean ((python.lastUsages listing).map fun usage => (usage.rss : ℚ))) ↔
      (clientLogs listing).length = (python.lastUsages listing).length ∨
        ((python.lastUsages listing).map Usage.cpuTime).sum = 0 ∧
          ((python.lastUsages listing).map Usage.rss).sum = 0 := by
  have hlogs : (totalsOf python (clientLogs listing)).numFiles ≠ 0 := by
    intro hnone
    refine hgood ?_
    rw [Conversions.lastUsages, List.length_eq_zero_iff.mp hnone, List.filterMap_nil]
  have hrss : (((python.lastUsages listing).map Usage.rss).sum : ℚ) =
      ((python.lastUsages listing).map fun usage => (usage.rss : ℚ)).sum := by
    rw [Int.cast_list_sum, List.map_map]
    rfl
  rw [process_eq, hrows, if_neg Bool.false_ne_true, averages_of_numFiles hlogs, Except.ok.injEq,
    Prod.mk.injEq]
  have hcpu := sum_div_eq_mean_iff ((python.lastUsages listing).map Usage.cpuTime)
    (clientLogs listing).length
  have hmem := sum_div_eq_mean_iff ((python.lastUsages listing).map fun usage => (usage.rss : ℚ))
    (clientLogs listing).length
  rw [List.length_map] at hcpu hmem
  have hzero : ((python.lastUsages listing).map Usage.rss).sum = 0 ↔
      ((python.lastUsages listing).map fun usage => (usage.rss : ℚ)).sum = 0 := by
    rw [← hrss, Int.cast_eq_zero]
  rw [hzero, or_and_left, ← hcpu, ← hmem, ← hrss]
  rfl

/-- No row is cut short after the last good one of its log. Every log has a good row, or
none has, or what they add up to is zero. -/
theorem averagesTruly_iff (python : Conversions) (listing : List Entry) :
    AveragesTruly python listing ↔
      (∀ rows ∈ clientLogs listing, ∀ row ∈ python.rowsAfterLast rows,
          python.cutShort row = false) ∧
        ((∀ rows ∈ clientLogs listing, ∃ row ∈ rows, python.usage row ≠ none) ∨
          (∀ rows ∈ clientLogs listing, ∀ row ∈ rows, python.usage row = none) ∨
          ((python.lastUsages listing).map Usage.cpuTime).sum = 0 ∧
            ((python.lastUsages listing).map Usage.rss).sum = 0) := by
  rw [← any_endsCutShort_eq_false_iff, ← length_clientLogs_eq_iff, ← lastUsages_eq_nil_iff]
  constructor
  · intro htruly
    have hrows := rows_iff.mp htruly.rows
    refine ⟨hrows, ?_⟩
    by_cases hgood : python.lastUsages listing = []
    · exact .inr (.inl hgood)
    · have hmean := (mean_iff hrows hgood).mp (htruly.mean hgood listing (.refl listing))
      exact hmean.imp_right Or.inr
  · rintro ⟨hrows, hcount⟩
    refine ⟨rows_iff.mpr hrows, fun hgood other hperm => ?_⟩
    rw [process_of_perm hperm]
    exact (mean_iff hrows hgood).mpr (hcount.imp_right fun h => h.resolve_left hgood)

/-- The number that some digits make. -/
def digits (text : List Char) : Option ℕ :=
  if text ≠ [] ∧ text.all Char.isDigit = true then some (Nat.ofDigitChars 10 text 0) else none

/-- The conversions of the numbers that the logger writes: digits, with a decimal point
when the number is not whole. -/
def decimals : Conversions where
  float text :=
    match text.dropWhile (· ≠ '.') with
    | [] => do
        let whole ← digits text
        return whole
    | _ :: fraction => do
        let whole ← digits (text.takeWhile (· ≠ '.'))
        let parts ← digits fraction
        return whole + parts / 10 ^ fraction.length
  int text := (digits text).map Nat.cast

/-- A line that is cut off behind the CPU time ends the script. A log with nothing but its
header is counted, which halves the averages. -/
theorem cut_short_log_is_not_averaged :
    let header : Row :=
      [['C', 'P', 'U', ' ', 'T', 'I', 'M', 'E'], ['R', 'S', 'S', ' ', '(', 'K', 'B', ')']]
    let good : Row := [['1', '.', '5'], ['2', '0', '4', '8']]
    let cut : List Entry := [⟨['1', '.', 'c', 's', 'v'], some [header, good, [['2']]]⟩]
    let counted : List Entry := [⟨['1', '.', 'c', 's', 'v'], some [header, good]⟩,
      ⟨['2', '.', 'c', 's', 'v'], some [header]⟩]
    process decimals cut = .error .indexError ∧ ¬ AveragesTruly decimals cut ∧
      process decimals counted = .ok (3 / 4, 1024) ∧ ¬ AveragesTruly decimals counted := by
  intro header good cut counted
  have hcut : process decimals cut = .error .indexError := by decide +kernel
  have hcounted : process decimals counted = .ok (3 / 4, 1024) := by decide +kernel
  have hgood : decimals.lastUsages counted = [⟨3 / 2, 2048, by decide +kernel, by decide⟩] := by
    decide +kernel
  refine ⟨hcut, fun htruly => absurd (htruly.rows _ hcut) (by decide), hcounted, fun htruly => ?_⟩
  have hmean := htruly.mean (by rw [hgood]; exact List.cons_ne_nil _ _) counted (.refl _)
  rw [hcounted, hgood] at hmean
  exact absurd hmean (by decide +kernel)

end LibBench.UsageLogs
