import LendingRelay.Proofs.InterestRate
import LendingRelay.Proofs.Layouts
import LendingRelay.Proofs.Serving

/-!
# What is reported, and when

A report writes nothing before it knows that its accounts belong to the lending program and to one
another. Up to then it can do only one thing other than go on, and that is to fail. So the checks
are read off a report that does more than fail, one after the other, and a report that does not get
past them leaves nothing but its failure in the log.

* `Report.Gate`: the accounts of a report belong together.
* `Report.gate_of_proceeds`: a report that does more than fail has passed the gate.
* `Report.Linked.logCurrentInterest_of_fits`, `Report.Linked.logCurrentInterest_of_not_fits`: behind
  the gate, the sum of debt and deposits is all that can fail the report on interest.
* `Relay.reported`: the statement about calls for a report.
-/

namespace LendingRelay

open Number (capacity unit)

/-! ## Runs that do more than fail -/

namespace Run

/-- The run does more than `fail`. -/
def Proceeds (run : Run α) : Prop :=
  ∀ fault, run ≠ fail fault

theorem lift_bind_of_ok {result : Except RelayError α} {a : α} (hok : result = .ok a)
    (next : α → Run β) : (lift result >>= next) = next a := by
  rw [hok]
  rfl

theorem requireKeysEq_bind_of_eq {left right : Pubkey} (heq : left = right) (error : RelayError)
    (next : Unit → Run β) : (requireKeysEq left right error >>= next) = next () := by
  rw [requireKeysEq_eq, if_pos heq]
  rfl

/-- A step that can go wrong did not, or the run would be nothing but its failure.
`Proceeds.ofExcept` and `Proceeds.requireKeysEq` read off the other two kinds of steps in the same
way. -/
theorem Proceeds.lift {result : Except RelayError α} {next : α → Run β}
    (hproceeds : Proceeds (Run.lift result >>= next)) :
    ∃ a, result = .ok a ∧ Proceeds (next a) := by
  cases result with
  | ok a => exact ⟨a, rfl, hproceeds⟩
  | error error => exact absurd rfl (hproceeds (.thrown error))

theorem Proceeds.ofExcept {result : Except Fault α} {next : α → Run β}
    (hproceeds : Proceeds (Run.ofExcept result >>= next)) :
    ∃ a, result = .ok a ∧ Proceeds (next a) := by
  cases result with
  | ok a => exact ⟨a, rfl, hproceeds⟩
  | error fault => exact absurd rfl (hproceeds fault)

theorem Proceeds.requireKeysEq {left right : Pubkey} {error : RelayError} {next : Unit → Run β}
    (hproceeds : Proceeds (Run.requireKeysEq left right error >>= next)) :
    left = right ∧ Proceeds (next ()) := by
  rw [requireKeysEq_eq] at hproceeds
  by_cases heq : left = right
  · rw [if_pos heq] at hproceeds
    exact ⟨heq, hproceeds⟩
  · rw [if_neg heq] at hproceeds
    exact absurd rfl (hproceeds _)

end Run

/-! ## The gate -/

namespace Report

/-- A market and a reserve belong to the lending program, and each names the other: the reserve in
its `ReserveView.marketField`, the market at the reserve's index in its table. -/
structure Linked (market reserve : Account) : Prop where
  marketOwner : market.owner = lendingProgram
  reserveOwner : reserve.owner = lendingProgram
  marketLength : layoutTagLength + MarketView.layoutLength ≤ market.data.length
  reserveLength : layoutTagLength + ReserveView.layoutLength ≤ reserve.data.length
  reserveMarket : ReserveView.marketField.read reserve.data = .ok market.key
  listed : ∃ index : UInt16, ReserveView.indexField.read reserve.data = .ok index ∧
    index.toNat < MarketView.maxReserves ∧
      (MarketView.reserveField index).read market.data = .ok reserve.key

/-- An obligation belongs to the lending program and names the market in its
`ObligationView.marketField`. -/
structure ObligationLinked (market obligation : Account) : Prop where
  owner : obligation.owner = lendingProgram
  length : layoutTagLength + ObligationView.layoutLength ≤ obligation.data.length
  market : ObligationView.marketField.read obligation.data = .ok market.key

/-- The accounts of a report belong together. Which of them have to be `Linked` depends on the
report. -/
def Gate : Report → List Account → Prop
  | currentInterest, market :: reserve :: _ => Linked market reserve
  | reserveBalance, market :: reserve :: _ => Linked market reserve
  | userBalance, market :: reserve :: obligation :: _ =>
    Linked market reserve ∧ ObligationLinked market obligation
  | _, _ => False

/-- Behind `listedIndex` market and reserve name each other. The steps are taken off the front of
the run one by one, each with its lemma of `Run.Proceeds`. -/
theorem listed_of_proceeds {market : MarketView} {reserve : ReserveView}
    {marketKey reserveKey : Pubkey} {next : UInt16 → Run β}
    (hproceeds : Run.Proceeds (listedIndex market reserve marketKey reserveKey >>= next)) :
    ∃ index, reserve.market = .ok marketKey ∧ reserve.index = .ok index ∧
      market.reserveAt index = .ok reserveKey ∧ Run.Proceeds (next index) := by
  simp only [listedIndex, bind_assoc] at hproceeds
  obtain ⟨_, hmarket, hproceeds⟩ := hproceeds.lift
  obtain ⟨hmarketKey, hproceeds⟩ := hproceeds.requireKeysEq
  obtain ⟨index, hindex, hproceeds⟩ := hproceeds.lift
  obtain ⟨_, hreserve, hproceeds⟩ := hproceeds.lift
  obtain ⟨hreserveKey, hproceeds⟩ := hproceeds.requireKeysEq
  exact ⟨index, hmarket.trans (congrArg _ hmarketKey), hindex,
    hreserve.trans (congrArg _ hreserveKey), hproceeds⟩

/-- What the checks of a report find out about a market and a reserve, put together. The views are
the data of the accounts, by `MarketView.ofData?_eq_ok_iff` and its like. -/
theorem Linked.of_checks {market reserve : Account} {marketView : MarketView}
    {reserveView : ReserveView} {index : UInt16} (hmarketOwner : market.owner = lendingProgram)
    (hreserveOwner : reserve.owner = lendingProgram)
    (hmarketView : MarketView.ofData? market.data = .ok marketView)
    (hreserveView : ReserveView.ofData? reserve.data = .ok reserveView)
    (hmarket : reserveView.market = .ok market.key) (hindex : reserveView.index = .ok index)
    (hreserve : marketView.reserveAt index = .ok reserve.key) : Linked market reserve := by
  obtain ⟨hmarketLength, rfl⟩ := (MarketView.ofData?_eq_ok_iff ..).mp hmarketView
  obtain ⟨hreserveLength, rfl⟩ := (ReserveView.ofData?_eq_ok_iff ..).mp hreserveView
  obtain ⟨hbound, hentry⟩ := (MarketView.reserveAt_eq_ok_iff ..).mp hreserve
  exact ⟨hmarketOwner, hreserveOwner, hmarketLength, hreserveLength, hmarket,
    ⟨index, hindex, hbound, hentry⟩⟩

/-- `logCurrentInterest` and `logReserveBalance` start with the same checks. -/
theorem linked_of_proceeds {seating : Seating} {next : MarketView → ReserveView → UInt16 → Run β}
    (hproceeds : Run.Proceeds (do
      requireLendingOwner (seating.account .market)
      requireLendingOwner (seating.account .reserve)
      let market ← Run.lift (MarketView.ofData? (seating.account .market).data)
      let reserve ← Run.lift (ReserveView.ofData? (seating.account .reserve).data)
      let index ← listedIndex market reserve (seating.key .market) (seating.key .reserve)
      next market reserve index)) :
    Linked (seating.account .market) (seating.account .reserve) := by
  obtain ⟨hmarketOwner, hproceeds⟩ := hproceeds.requireKeysEq
  obtain ⟨hreserveOwner, hproceeds⟩ := hproceeds.requireKeysEq
  obtain ⟨market, hmarketView, hproceeds⟩ := hproceeds.lift
  obtain ⟨reserve, hreserveView, hproceeds⟩ := hproceeds.lift
  obtain ⟨index, hmarket, hindex, hreserve, -⟩ := listed_of_proceeds hproceeds
  exact .of_checks hmarketOwner hreserveOwner hmarketView hreserveView hmarket hindex hreserve

/-- `logUserBalance` looks at the obligation in between, so its checks come in another order. -/
theorem linked_of_logUserBalance {seating : Seating}
    (hproceeds : Run.Proceeds (logUserBalance seating)) :
    Linked (seating.account .market) (seating.account .reserve) ∧
      ObligationLinked (seating.account .market) (seating.account .obligation) := by
  obtain ⟨hmarketOwner, hproceeds⟩ := hproceeds.requireKeysEq
  obtain ⟨hreserveOwner, hproceeds⟩ := hproceeds.requireKeysEq
  obtain ⟨hobligationOwner, hproceeds⟩ := hproceeds.requireKeysEq
  obtain ⟨market, hmarketView, hproceeds⟩ := hproceeds.lift
  obtain ⟨reserve, hreserveView, hproceeds⟩ := hproceeds.lift
  obtain ⟨obligation, hobligationView, hproceeds⟩ := hproceeds.lift
  obtain ⟨index, hmarket, hindex, hreserve, hproceeds⟩ := listed_of_proceeds hproceeds
  obtain ⟨_, hnamed, hproceeds⟩ := hproceeds.lift
  obtain ⟨hmarketKey, -⟩ := hproceeds.requireKeysEq
  obtain ⟨hlength, rfl⟩ := (ObligationView.ofData?_eq_ok_iff ..).mp hobligationView
  exact ⟨.of_checks hmarketOwner hreserveOwner hmarketView hreserveView hmarket hindex hreserve,
    ⟨hobligationOwner, hlength, hnamed.trans (congrArg _ hmarketKey)⟩⟩

/-- **A report that does more than fail has passed the gate.** Taking the accounts was the first
thing that could fail; from there it is `linked_of_proceeds` or `linked_of_logUserBalance`. -/
theorem gate_of_proceeds {report : Report} {accounts : List Account}
    (hproceeds : Run.Proceeds (Relay.serve (.report report) accounts)) : report.Gate accounts := by
  obtain ⟨⟨seating, rest⟩, htake, hproceeds⟩ := hproceeds.ofExcept
  obtain ⟨hfits, rfl, -⟩ := (Seating.take_eq_ok_iff ..).mp htake
  have henough := hfits.enough
  -- The parts are played by the accounts in front, in the order of the slots.
  cases report with
  | currentInterest =>
    match accounts, henough with
    | market :: reserve :: _, _ => exact linked_of_proceeds hproceeds
  | reserveBalance =>
    match accounts, henough with
    | market :: reserve :: _, _ => exact linked_of_proceeds hproceeds
  | userBalance =>
    match accounts, henough with
    | market :: reserve :: obligation :: _ :: _, _ => exact linked_of_logUserBalance hproceeds

end Report

/-! ## The report on interest -/

namespace Report

/-- The two parts in the report on interest. -/
abbrev interestSeats (market reserve : Account) : Seating :=
  Seating.seat relayProgram currentInterest.slots [market, reserve]

namespace Linked

variable {market reserve : Account} {debt : Number} {deposits : UInt64} {curve : RateCurve}

/-- Behind the gate only the two figures are left to compute: each check in front passes by one part
of `Linked`, each reading by one part of `ReserveView.Holds`. -/
theorem logCurrentInterest_eq (hlinked : Linked market reserve)
    (hholds : ReserveView.Holds ⟨reserve.data⟩ debt deposits curve) :
    logCurrentInterest (interestSeats market reserve) = (do
      let utilization ← Run.lift (utilizationRate debt deposits)
      let rate ← Run.lift (curve.interestRate debt deposits)
      figure "utilization rate" (.ok utilization)
      figure "interest rate" (.ok rate)) := by
  obtain ⟨index, hindex, hbound, hentry⟩ := hlinked.listed
  refine (Run.requireKeysEq_bind_of_eq hlinked.marketOwner ..).trans ?_
  refine (Run.requireKeysEq_bind_of_eq hlinked.reserveOwner ..).trans ?_
  refine (Run.lift_bind_of_ok
    ((MarketView.ofData?_eq_ok_iff ..).mpr ⟨hlinked.marketLength, rfl⟩) _).trans ?_
  refine (Run.lift_bind_of_ok
    ((ReserveView.ofData?_eq_ok_iff ..).mpr ⟨hlinked.reserveLength, rfl⟩) _).trans ?_
  -- The search for the place of the reserve, in which every check is about naming.
  rw [listedIndex, bind_assoc]
  refine (Run.lift_bind_of_ok hlinked.reserveMarket _).trans ?_
  rw [bind_assoc]
  refine (Run.requireKeysEq_bind_of_eq rfl ..).trans ?_
  rw [bind_assoc]
  refine (Run.lift_bind_of_ok hindex _).trans ?_
  rw [bind_assoc]
  refine (Run.lift_bind_of_ok
    ((MarketView.reserveAt_eq_ok_iff ..).mpr ⟨hbound, hentry⟩) _).trans ?_
  rw [bind_assoc]
  refine (Run.requireKeysEq_bind_of_eq rfl ..).trans ?_
  rw [pure_bind]
  -- Past the checks; the curve is read only after the utilization rate is there.
  refine (Run.lift_bind_of_ok hholds.debt _).trans ?_
  refine (Run.lift_bind_of_ok hholds.deposits _).trans ?_
  refine congrArg _ (funext fun utilization => ?_)
  exact Run.lift_bind_of_ok hholds.curve _

/-- **With a sum that fits** both figures are there, by `utilizationRate_of_fits` and
`RateCurve.interestRate_of_fits`, and they are all that is logged. -/
theorem logCurrentInterest_of_fits (hlinked : Linked market reserve)
    (hholds : ReserveView.Holds ⟨reserve.data⟩ debt deposits curve)
    (hfits : debt.raw + deposits.toNat * unit < capacity) :
    ∃ utilization rate, utilizationRate debt deposits = .ok utilization ∧
      curve.interestRate debt deposits = .ok rate ∧
      logCurrentInterest (interestSeats market reserve) = (do
        Run.log s!"utilization rate: {utilization}"
        Run.log s!"interest rate: {rate}") := by
  obtain ⟨utilization, hutilization, -⟩ := utilizationRate_of_fits hfits
  obtain ⟨rate, hrate, -⟩ := curve.interestRate_of_fits hfits
  refine ⟨utilization, rate, hutilization, hrate, ?_⟩
  rw [hlinked.logCurrentInterest_eq hholds, hutilization, hrate]
  rfl

/-- **With a sum that does not fit** nothing is logged, since the first of the figures is
`mathOverflow` already. -/
theorem logCurrentInterest_of_not_fits (hlinked : Linked market reserve)
    (hholds : ReserveView.Holds ⟨reserve.data⟩ debt deposits curve)
    (hover : ¬debt.raw + deposits.toNat * unit < capacity) :
    logCurrentInterest (interestSeats market reserve) = Run.raise .mathOverflow := by
  rw [hlinked.logCurrentInterest_eq hholds, utilizationRate_of_not_fits hover]
  rfl

end Linked

end Report

/-! ## Calls for a report -/

/-- What is promised of a call for `Report.currentInterest`, with a market and a reserve in front of
its accounts. -/
structure InterestReported (market reserve : Account) (ended : Outcome Unit) : Prop where
  /-- The accounts belong together and the sum of debt and deposits fits: nothing else can fail. -/
  succeeds_iff : ended.result = .ok () ↔
    Report.Linked market reserve ∧ ∃ debt deposits curve,
      ReserveView.Holds ⟨reserve.data⟩ debt deposits curve ∧
        debt.raw + deposits.toNat * unit < capacity
  /-- The figures are those of the reserve's own curve, and nothing else is logged. -/
  figures : ended.result = .ok () → ∃ debt deposits curve utilization rate,
    ReserveView.Holds ⟨reserve.data⟩ debt deposits curve ∧
      utilizationRate debt deposits = .ok utilization ∧
      curve.interestRate debt deposits = .ok rate ∧
      ended.trace =
        [.log "Instruction: GetCurrentInterest", .log s!"utilization rate: {utilization}",
         .log s!"interest rate: {rate}"]

/-- What is promised of every call for a report. -/
structure Reported (report : Report) (id : Pubkey) (accounts : List Account)
    (ended : Outcome Unit) : Prop where
  calls : Trace.calls ended.trace = []
  events : Trace.events ended.trace = []
  /-- Beside figures, only the name of the instruction and a failure are logged. -/
  lines : ∀ line, .log line ∈ ended.trace →
    Report.IsFigure line ∨ line = s!"Instruction: {CamelCase.ofSnakeCase report.name}" ∨
      ∃ fault : Fault, ended.result = .error fault.result ∧ line ∈ fault.lines
  /-- Figures are about accounts that belong together. -/
  gated : ∀ line, Report.IsFigure line → .log line ∈ ended.trace → report.Gate accounts
  interest : report = .currentInterest → id = relayProgram →
    ∀ market reserve rest, accounts = market :: reserve :: rest →
      InterestReported market reserve ended
  /-- The report on interest writes both figures or none. -/
  silent : report = .currentInterest → ended.result ≠ .ok () →
    ∀ line, Report.IsFigure line → .log line ∉ ended.trace

namespace Relay

variable {framework : Framework}

/-- The slots of `Report.currentInterest` take any two accounts. -/
theorem serve_currentInterest (market reserve : Account) (rest : List Account) :
    serve (.report .currentInterest) (market :: reserve :: rest) =
      Report.logCurrentInterest (Report.interestSeats market reserve) :=
  rfl

/-- The report on interest writes both figures or fails at once, with nothing in between. If it
proceeds at all it is behind the gate, and there `Report.Linked.logCurrentInterest_of_fits` and
`Report.Linked.logCurrentInterest_of_not_fits` are the two cases. -/
theorem serve_currentInterest_cases (accounts : List Account) :
    (∃ fault, serve (.report .currentInterest) accounts = Run.fail fault) ∨
      ∃ utilization rate : Number, serve (.report .currentInterest) accounts = (do
        Run.log s!"utilization rate: {utilization}"
        Run.log s!"interest rate: {rate}") := by
  by_cases hproceeds : Run.Proceeds (serve (.report .currentInterest) accounts)
  · have hgate := Report.gate_of_proceeds hproceeds
    match accounts, hgate with
    | market :: reserve :: rest, hlinked =>
      obtain ⟨debt, deposits, curve, hholds⟩ := ReserveView.exists_holds hlinked.reserveLength
      rw [serve_currentInterest]
      by_cases hfits : debt.raw + deposits.toNat * unit < capacity
      · obtain ⟨utilization, rate, -, -, hrun⟩ := hlinked.logCurrentInterest_of_fits hholds hfits
        exact .inr ⟨utilization, rate, hrun⟩
      · exact .inl ⟨_, hlinked.logCurrentInterest_of_not_fits hholds hfits⟩
  · obtain ⟨fault, hfault⟩ := not_forall.mp hproceeds
    exact .inl ⟨fault, not_not.mp hfault⟩

/-- Figures in the log were written while the request was served: neither the line with the
instruction's name nor the lines about a failure satisfy `Report.IsFigure`. -/
theorem figure_mem_served {request : Request} {tail : Bytes} {accounts : List Account}
    {script : Script} {line : String} (hfigure : Report.IsFigure line)
    (hmem : .log line ∈
      (outcome framework relayProgram accounts (request.data ++ tail) script).trace) :
    .log line ∈ (serve request accounts script).trace := by
  rcases (log_mem_outcome_iff ..).mp hmem with hname | hwritten | hclosing
  · exact absurd hname (hfigure.ne_of_startsSmall (startsSmall?_append (by decide) _))
  · exact hwritten
  · obtain ⟨fault, -, hline⟩ := Run.mem_closingLines hclosing
    exact absurd hline (hfigure.not_mem_lines fault)

/-- **The report on interest** succeeds on accounts that belong together when the sum of debt and
deposits fits, and fails otherwise. From success to the gate it is `Report.gate_of_proceeds`, as a
success is no failure. -/
theorem result_currentInterest_iff (market reserve : Account) (rest : List Account) (tail : Bytes)
    (script : Script) :
    (outcome framework relayProgram (market :: reserve :: rest)
        ((Request.report .currentInterest).data ++ tail) script).result = .ok () ↔
      Report.Linked market reserve ∧ ∃ debt deposits curve,
        ReserveView.Holds ⟨reserve.data⟩ debt deposits curve ∧
          debt.raw + deposits.toNat * unit < capacity := by
  rw [result_outcome_iff]
  refine ⟨fun hok => ?_, fun hgate => ?_⟩
  · have hproceeds : Run.Proceeds
        (serve (.report .currentInterest) (market :: reserve :: rest)) := by
      intro fault hfault
      rw [hfault] at hok
      cases hok
    have hlinked : Report.Linked market reserve := Report.gate_of_proceeds hproceeds
    obtain ⟨debt, deposits, curve, hholds⟩ := ReserveView.exists_holds hlinked.reserveLength
    refine ⟨hlinked, debt, deposits, curve, hholds, ?_⟩
    -- An overflow would have made the run fail.
    by_contra hover
    rw [serve_currentInterest, hlinked.logCurrentInterest_of_not_fits hholds hover] at hok
    cases hok
  · obtain ⟨hlinked, debt, deposits, curve, hholds, hfits⟩ := hgate
    obtain ⟨utilization, rate, -, -, hrun⟩ := hlinked.logCurrentInterest_of_fits hholds hfits
    rw [serve_currentInterest, hrun]
    rfl

/-- The parts of `InterestReported`. The trace has the instruction's name in front of
the figures. -/
theorem interestReported (market reserve : Account) (rest : List Account) (tail : Bytes)
    (script : Script) :
    InterestReported market reserve (outcome framework relayProgram (market :: reserve :: rest)
      ((Request.report .currentInterest).data ++ tail) script) := by
  refine ⟨result_currentInterest_iff .., fun hok => ?_⟩
  obtain ⟨hlinked, debt, deposits, curve, hholds, hfits⟩ :=
    (result_currentInterest_iff ..).mp hok
  obtain ⟨utilization, rate, hutilization, hrate, hrun⟩ :=
    hlinked.logCurrentInterest_of_fits hholds hfits
  refine ⟨debt, deposits, curve, utilization, rate, hholds, hutilization, hrate, ?_⟩
  have hname : s!"Instruction: {CamelCase.ofSnakeCase (Request.report .currentInterest).name}" =
      "Instruction: GetCurrentInterest" := by decide
  rw [outcome_served, serve_currentInterest, hrun, hname]
  rfl

/-- A call of another program is turned away, and only the `Fault.lines` of that are logged. -/
theorem reported_of_id_ne {id : Pubkey} (hid : id ≠ relayProgram) (report : Report)
    (accounts : List Account) (data : Bytes) (script : Script) :
    Reported report id accounts (outcome framework id accounts data script) := by
  obtain ⟨fault, houtcome⟩ : ∃ fault : Fault, outcome framework id accounts data script =
      { result := .error fault.result, trace := fault.lines.map .log, script } :=
    ⟨_, by rw [outcome, Run.conclude_eq, Program.entryOn_of_id_ne framework hid]; rfl⟩
  have hlogged : ∀ line, Report.IsFigure line → .log line ∉ fault.lines.map TraceEntry.log := by
    intro line hfigure
    simpa using hfigure.not_mem_lines fault
  rw [houtcome]
  exact
    { calls := Trace.calls_map_log _
      events := Trace.events_map_log _
      lines := fun line hmem => .inr (.inr ⟨fault, rfl, by simpa using hmem⟩)
      gated := fun line hfigure hmem => absurd hmem (hlogged line hfigure)
      interest := fun _ hrelay => absurd hrelay hid
      silent := fun _ _ => hlogged }

/-- **Reports only read, and only behind the gate.** Whatever accounts and data come with a call for
a report, it makes no call of its own and announces nothing, and it writes a figure only when the
accounts belong to the lending program and to one another. The report on interest then needs no more
than a sum of debt and deposits that fits.

That there are no calls and no events is `logs_serve_report`, and the rest is about lines: one in
the trace is the name of the instruction, was written in serving, or is about the failure. -/
theorem reported (framework : Framework) (report : Report) (id : Pubkey) (accounts : List Account)
    (tail : Bytes) (script : Script) :
    Reported report id accounts
      (outcome framework id accounts ((Request.report report).data ++ tail) script) := by
  by_cases hid : id = relayProgram
  case neg => exact reported_of_id_ne hid report accounts _ script
  subst hid
  have hserved := logs_serve_report report accounts
  obtain ⟨lines, htrace, hfigures⟩ := hserved.lines script
  constructor
  case calls => rw [calls_outcome, hserved.quiet.calls]
  case events => rw [events_outcome, hserved.quiet.events]
  case lines =>
    -- A line of the trace is of one of three kinds, by `log_mem_outcome_iff`.
    intro line hmem
    rcases (log_mem_outcome_iff ..).mp hmem with hname | hwritten | hclosing
    · exact .inr (.inl hname)
    · rw [htrace] at hwritten
      exact .inl (hfigures line (by simpa using hwritten))
    · obtain ⟨fault, hfault, hline⟩ := Run.mem_closingLines hclosing
      refine .inr (.inr ⟨fault, ?_, hline⟩)
      rw [outcome_served]
      dsimp only
      rw [hfault]
      rfl
  case gated =>
    intro line hfigure hmem
    -- Had the report only failed, there would be no figure in what it wrote.
    apply Report.gate_of_proceeds
    intro fault hfault
    have hwritten := figure_mem_served hfigure hmem
    rw [hfault] at hwritten
    cases hwritten
  case interest =>
    rintro rfl - market reserve rest rfl
    exact interestReported market reserve rest tail script
  case silent =>
    rintro rfl hfailed line hfigure hmem
    have hwritten := figure_mem_served hfigure hmem
    -- A failed report wrote nothing; one that wrote its figures has succeeded.
    rcases serve_currentInterest_cases accounts with ⟨fault, hrun⟩ | ⟨utilization, rate, hrun⟩
    · rw [hrun] at hwritten
      cases hwritten
    · apply hfailed
      rw [result_outcome_iff, hrun]
      rfl

/-- A market with one reserve, in the first place of its table. -/
def listingMarket : Account :=
  { key := mainMarket, owner := lendingProgram
    data := List.replicate 680 0 ++ (Pubkey.ofNat 7).bytes ++ List.replicate 15840 0 }

/-- A reserve of which three quarters are lent out. The kinks of its curve are out of order, at 90%
and at 40%, which `RateCurve` does not rule out. -/
def lentReserve : Account :=
  { key := .ofNat 7, owner := lendingProgram
    data :=
      List.replicate 16 0 ++ mainMarket.bytes ++ List.replicate 728 0 ++
        ([9000, 4000, 300, 200, 700, 100].flatMap (Bytes.le 2)) ++ List.replicate 828 0 ++
        Bytes.le 24 (75 * unit) ++ List.replicate 24 0 ++ Bytes.le 8 25 ++
        List.replicate 3520 0 }

theorem holds_lentReserve :
    ReserveView.Holds ⟨lentReserve.data⟩ ⟨75 * unit, by simp [unit, capacity]⟩ 25
      ⟨9000, 4000, 300, 200, 700, 100⟩ :=
  ⟨by decide +kernel, by decide +kernel, by decide +kernel⟩

theorem linked_lentReserve : Report.Linked listingMarket lentReserve where
  marketOwner := rfl
  reserveOwner := rfl
  marketLength := by
    simp only [listingMarket, List.length_append, List.length_replicate, Pubkey.length_bytes]
    decide
  reserveLength := by
    simp only [lentReserve, List.length_append, List.length_replicate, Pubkey.length_bytes,
      Bytes.length_le]
    decide
  reserveMarket := by decide +kernel
  listed := ⟨0, by decide +kernel, by decide, by decide +kernel⟩

/-- The report on `lentReserve` writes its share and the rate of its own curve. -/
theorem reported_lentReserve :
    let ended := outcome .withoutIdl relayProgram [listingMarket, lentReserve]
      ((Request.report .currentInterest).data ++ []) []
    ended.result = .ok () ∧ ended.trace =
      [.log "Instruction: GetCurrentInterest", .log "utilization rate: 0.750000000000000",
       .log "interest rate: 0.021666666666667"] := by
  intro ended
  have hreported : InterestReported listingMarket lentReserve ended :=
    (reported .withoutIdl .currentInterest relayProgram [listingMarket, lentReserve] []
      []).interest rfl rfl listingMarket lentReserve [] rfl
  have hok : ended.result = .ok () :=
    hreported.succeeds_iff.mpr ⟨linked_lentReserve, _, _, _, holds_lentReserve, by decide +kernel⟩
  obtain ⟨debt, deposits, curve, utilization, rate, hholds, hutilization, hrate, htrace⟩ :=
    hreported.figures hok
  -- What the reserve holds can be read in one way only, so the figures are about these values.
  obtain rfl := Except.ok.inj (hholds.debt.symm.trans holds_lentReserve.debt)
  obtain rfl := Except.ok.inj (hholds.deposits.symm.trans holds_lentReserve.deposits)
  obtain rfl := Except.ok.inj (hholds.curve.symm.trans holds_lentReserve.curve)
  have hshare : utilizationRate ⟨75 * unit, by simp [unit, capacity]⟩ 25 =
      .ok ⟨750000000000000, by simp [capacity]⟩ := by decide +kernel
  have hcurve : RateCurve.interestRate ⟨9000, 4000, 300, 200, 700, 100⟩
      ⟨75 * unit, by simp [unit, capacity]⟩ 25 = .ok ⟨21666666666667, by simp [capacity]⟩ := by
    decide +kernel
  obtain rfl := Except.ok.inj (hutilization.symm.trans hshare)
  obtain rfl := Except.ok.inj (hrate.symm.trans hcurve)
  refine ⟨hok, ?_⟩
  rw [htrace]
  decide +kernel

end Relay

end LendingRelay
