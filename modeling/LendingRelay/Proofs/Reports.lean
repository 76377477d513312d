import LendingRelay.Proofs.Runs
import LendingRelay.Relay.Report

/-!
# Reports only log

A report reads the accounts of the lending program and writes figures to the log, each under one of
a few labels. Its helpers only log one by one, so each report is a row of steps that only log.

* `Report.labels`, `Report.IsFigure`: the lines that reports write.
* `Report.logs_write`: a report writes such lines and does nothing else.
* `Report.IsFigure.not_mem_lines`: none of the lines about a failure is one of them.
-/

namespace LendingRelay

namespace Run

/-- A run that does nothing but log lines of a kind. The script of answers is left as it is, since
nothing is called. -/
structure Logs (kind : String → Prop) (run : Run α) : Prop where
  lines : ∀ script, ∃ lines : List String,
    (run script).trace = lines.map .log ∧ ∀ line ∈ lines, kind line
  script : ∀ script, (run script).script = script

section

variable {kind : String → Prop}

theorem logs_pure (a : α) : Logs kind (Pure.pure a : Run α) :=
  ⟨fun _ => ⟨[], rfl, nofun⟩, fun _ => rfl⟩

theorem logs_fail (fault : Fault) : Logs kind (fail fault : Run α) :=
  ⟨fun _ => ⟨[], rfl, nofun⟩, fun _ => rfl⟩

theorem logs_log {line : String} (hline : kind line) : Logs kind (log line) :=
  ⟨fun _ => ⟨[line], rfl, by simpa using hline⟩, fun _ => rfl⟩

theorem logs_ofExcept (result : Except Fault α) : Logs kind (ofExcept result) := by
  cases result with
  | ok a => exact logs_pure a
  | error fault => exact logs_fail fault

theorem logs_lift (result : Except RelayError α) : Logs kind (lift result) := by
  cases result with
  | ok a => exact logs_pure a
  | error error => exact logs_fail _

theorem logs_requireKeysEq (left right : Pubkey) (error : RelayError) :
    Logs kind (requireKeysEq left right error) := by
  rw [requireKeysEq_eq]
  split
  · exact logs_pure ()
  · exact logs_fail _

theorem Logs.bind {run : Run α} {next : α → Run β} (hrun : Logs kind run)
    (hnext : ∀ a, Logs kind (next a)) : Logs kind (run >>= next) := by
  refine ⟨fun script => ?_, fun script => ?_⟩
  · obtain ⟨first, hfirst, hkind⟩ := hrun.lines script
    cases hresult : (run script).result with
    | ok a =>
      -- Lines of the first step and then of the second; a failure leaves only the first ones.
      obtain ⟨second, hsecond, hkind'⟩ := (hnext a).lines (run script).script
      rw [bind_of_ok next hresult, hfirst, hsecond, ← List.map_append]
      exact ⟨first ++ second, rfl, List.forall_mem_append.mpr ⟨hkind, hkind'⟩⟩
    | error fault =>
      rw [bind_of_error next hresult, hfirst]
      exact ⟨first, rfl, hkind⟩
  · cases hresult : (run script).result with
    | ok a => rw [bind_of_ok next hresult, (hnext a).script, hrun.script]
    | error fault => rw [bind_of_error next hresult, hrun.script]

/-- Log lines call nothing and announce nothing, so this is stronger than `Quiet`. -/
theorem Logs.quiet {run : Run α} (hrun : Logs kind run) : Quiet run := by
  refine ⟨fun script => ?_, fun script => ?_, hrun.script⟩
  all_goals
    obtain ⟨lines, hlines, -⟩ := hrun.lines script
    simp [hlines]

end

end Run

namespace Report

/-- The labels of the figures in all reports. -/
def labels : List String :=
  ["utilization rate", "interest rate", "vault", "psyfi vault", "accrued until", "total deposits",
   "outstanding debt", "uncollected fees", "loan origination fee bps", "deposit note supply",
   "loan note supply", "deposit note exchange rate", "loan note exchange rate", "obligation owner",
   "collateral notes", "collateral native", "loan notes", "loan native", "held deposit notes",
   "held native"]

/-- A line that writes a value under one of `labels`. -/
def IsFigure (line : String) : Prop :=
  ∃ label ∈ labels, ∃ value : String, line = label ++ ": " ++ value

theorem logs_figure [ToString α] {label : String} (value : Except RelayError α)
    (hlabel : label ∈ labels) : Run.Logs IsFigure (figure label value) :=
  (Run.logs_lift value).bind fun value => Run.logs_log ⟨label, hlabel, toString value, rfl⟩

theorem logs_listedIndex (market : MarketView) (reserve : ReserveView)
    (marketKey reserveKey : Pubkey) :
    Run.Logs IsFigure (listedIndex market reserve marketKey reserveKey) := by
  refine (Run.logs_lift _).bind fun _ => ?_
  refine (Run.logs_requireKeysEq ..).bind fun _ => ?_
  refine (Run.logs_lift _).bind fun _ => ?_
  refine (Run.logs_lift _).bind fun _ => ?_
  exact (Run.logs_requireKeysEq ..).bind fun _ => Run.logs_pure _

theorem logs_logNotes {notesLabel nativeLabel : String} (notes rate : Number) (exponent : Int32)
    (hnotes : notesLabel ∈ labels) (hnative : nativeLabel ∈ labels) :
    Run.Logs IsFigure (logNotes notesLabel nativeLabel notes rate exponent) :=
  (logs_figure _ hnotes).bind fun _ => logs_figure _ hnative

theorem logs_logCurrentInterest (seating : Seating) :
    Run.Logs IsFigure (logCurrentInterest seating) := by
  refine (Run.logs_requireKeysEq ..).bind fun _ => ?_
  refine (Run.logs_requireKeysEq ..).bind fun _ => ?_
  refine (Run.logs_lift _).bind fun _ => ?_
  refine (Run.logs_lift _).bind fun _ => ?_
  refine (logs_listedIndex ..).bind fun _ => ?_
  iterate 5 refine (Run.logs_lift _).bind fun _ => ?_
  exact (logs_figure _ (by simp [labels])).bind fun _ => logs_figure _ (by simp [labels])

theorem logs_logReserveBalance (seating : Seating) :
    Run.Logs IsFigure (logReserveBalance seating) := by
  refine (Run.logs_requireKeysEq ..).bind fun _ => ?_
  refine (Run.logs_requireKeysEq ..).bind fun _ => ?_
  refine (Run.logs_lift _).bind fun _ => ?_
  refine (Run.logs_lift _).bind fun _ => ?_
  refine (logs_listedIndex ..).bind fun _ => ?_
  iterate 4 refine (Run.logs_lift _).bind fun _ => ?_
  refine (logs_figure _ (by simp [labels])).bind fun _ => ?_
  refine (Run.logs_lift _).bind fun vault => ?_
  -- Only some reserves have the line about a vault; the lines after it are the same.
  cases vault
  case' some => refine (logs_figure _ (by simp [labels])).bind fun _ => ?_
  all_goals
    iterate 3 refine (logs_figure _ (by simp [labels])).bind fun _ => ?_
    refine (Run.logs_lift _).bind fun _ => ?_
    iterate 5 refine (logs_figure _ (by simp [labels])).bind fun _ => ?_
    exact logs_figure _ (by simp [labels])

theorem logs_logUserBalance (seating : Seating) :
    Run.Logs IsFigure (logUserBalance seating) := by
  iterate 3 refine (Run.logs_requireKeysEq ..).bind fun _ => ?_
  iterate 3 refine (Run.logs_lift _).bind fun _ => ?_
  refine (logs_listedIndex ..).bind fun _ => ?_
  refine (Run.logs_lift _).bind fun _ => ?_
  refine (Run.logs_requireKeysEq ..).bind fun _ => ?_
  refine (logs_figure _ (by simp [labels])).bind fun _ => ?_
  refine (Run.logs_lift _).bind fun _ => ?_
  refine (Run.logs_lift _).bind fun _ => ?_
  -- Lines about collateral, about a loan and about held notes are each there or not.
  refine (Run.logs_lift _).bind fun collateral => ?_
  cases collateral
  case' some =>
    refine (logs_logNotes _ _ _ (by simp [labels]) (by simp [labels])).bind fun _ => ?_
  all_goals
    refine (Run.logs_lift _).bind fun loan => ?_
    cases loan
    case' some =>
      refine (logs_logNotes _ _ _ (by simp [labels]) (by simp [labels])).bind fun _ => ?_
    all_goals
      cases seating.tokens? .depositNoteAccount with
      | some tokens =>
        exact (logs_figure _ (by simp [labels])).bind fun _ => logs_figure _ (by simp [labels])
      | none => exact Run.logs_pure ()

/-- **A report writes figures** and does nothing else. The three reports are gone through step by
step, with `Run.Logs.bind` between the steps. -/
theorem logs_write (report : Report) (seating : Seating) :
    Run.Logs IsFigure (report.write seating) := by
  cases report with
  | currentInterest => exact logs_logCurrentInterest seating
  | reserveBalance => exact logs_logReserveBalance seating
  | userBalance => exact logs_logUserBalance seating

end Report

/-! ## Figures and other lines

A figure starts with a small letter and has a colon behind its label. The lines around it start with
a capital, or are a key in base 58, which has no colon. -/

/-- Whether the first character of a line, if it has one, is a small letter. All of `Report.labels`
do, which is what tells figures from the other lines. -/
def startsSmall? (line : String) : Option Bool :=
  line.toList.head?.map Char.isLower

theorem startsSmall?_append {front : String} {small : Bool}
    (hfront : startsSmall? front = some small) (back : String) :
    startsSmall? (front ++ back) = some small := by
  obtain ⟨first, hfirst, hsmall⟩ := Option.map_eq_some_iff.mp hfront
  rw [startsSmall?, String.toList_append, List.head?_append, hfirst, Option.some_or,
    Option.map_some, hsmall]

/-- A key in base 58 has no colon, which `Base58.alphabet` does not contain. -/
theorem Base58.colon_not_mem_encodeChars (bytes : Bytes) : ':' ∉ encodeChars bytes := by
  have hdigit : ∀ d, alphabet.getD d '1' ≠ ':' := by
    intro d hcolon
    rw [List.getD_eq_getElem?_getD] at hcolon
    cases hget : alphabet[d]? with
    | none =>
      rw [hget] at hcolon
      exact absurd hcolon (by decide)
    | some digit =>
      rw [hget] at hcolon
      have hmem : digit ∈ alphabet := List.mem_of_getElem? hget
      rw [show digit = ':' from hcolon] at hmem
      exact absurd hmem (by decide)
  intro hmem
  rcases List.mem_append.mp hmem with hzero | hfigure
  · obtain ⟨_, -, hcolon⟩ := List.mem_map.mp hzero
    exact absurd hcolon (by decide)
  · obtain ⟨d, -, hcolon⟩ := List.mem_map.mp hfigure
    exact hdigit d hcolon

/-- The first line about a failure starts with `Cause.kind`, and the keys that were compared may
follow. -/
theorem Fault.lines_eq (fault : Fault) :
    ∃ rest, fault.lines = (fault.cause.kind ++ rest) ::
      match fault.compared with
      | none => []
      | some (left, right) => ["Left:", left.toBase58, "Right:", right.toBase58] := by
  unfold Fault.lines
  simp only [String.append_assoc]
  cases fault.compared with
  | none => exact ⟨_, rfl⟩
  | some keys => exact ⟨_, rfl⟩

namespace Report.IsFigure

variable {line : String}

theorem startsSmall (hfigure : IsFigure line) : startsSmall? line = some true := by
  obtain ⟨label, hlabel, value, rfl⟩ := hfigure
  have hlabels : ∀ label ∈ labels, startsSmall? label = some true := by decide
  rw [String.append_assoc]
  exact startsSmall?_append (hlabels label hlabel) _

theorem ne_of_startsSmall {other : String} (hfigure : IsFigure line)
    (hother : startsSmall? other = some false) : line ≠ other := by
  rintro rfl
  rw [hfigure.startsSmall] at hother
  cases hother

theorem ne_key (hfigure : IsFigure line) (key : Pubkey) : line ≠ key.toBase58 := by
  rintro rfl
  obtain ⟨label, -, value, hline⟩ := hfigure
  have hcolon : ':' ∈ key.toBase58.toList := by
    rw [hline]
    simp [String.toList_append]
  rw [Pubkey.toBase58, Base58.encode, String.toList_ofList] at hcolon
  exact Base58.colon_not_mem_encodeChars _ hcolon

/-- **Figures are told from failures:** none of the lines about a failure is a figure. The first of
them starts with a capital, and so do the two in front of compared keys; the keys themselves are
`ne_key`. -/
theorem not_mem_lines (hfigure : IsFigure line) (fault : Fault) : line ∉ fault.lines := by
  have hkind : startsSmall? fault.cause.kind = some false := by
    have hkinds : fault.cause.kind = "AnchorError" ∨ fault.cause.kind = "ProgramError" := by
      cases fault.cause <;> simp [Cause.kind]
    rcases hkinds with hkind | hkind <;> rw [hkind] <;> decide
  obtain ⟨rest, hlines⟩ := fault.lines_eq
  have hhead : line ≠ fault.cause.kind ++ rest :=
    hfigure.ne_of_startsSmall (startsSmall?_append hkind rest)
  have hleft : line ≠ "Left:" := hfigure.ne_of_startsSmall rfl
  have hright : line ≠ "Right:" := hfigure.ne_of_startsSmall rfl
  rw [hlines]
  cases fault.compared with
  | none => simp [hhead]
  | some keys => simp [hhead, hleft, hright, hfigure.ne_key]

end Report.IsFigure

end LendingRelay
