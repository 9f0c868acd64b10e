import TradingCore.Proofs.ApplicationLiveness
import TradingCore.Proofs.ConfigWriting
import TradingCore.Startup

/-! Which files the application starts from, and what it is connected to then. A
file that is not accepted is reported; one that is accepted but names no exchange
that is supported ends the process without a report. An application that is
started is destroyed at once, and its destructor waits for good. -/

universe u

namespace TradingCore.Proofs.ApplicationStartup
open JsonConfigLoader JsonLibrary ConfigLoading ConfigWriting Outcomes BinanceExchangeFactory Shutdown

section
variable {Json : Type} [JsonLibrary Json]

/-- A text that is not there reads as the empty one. -/
def textOf (json : Json) (key : String) : String := ((find json key).bind text).getD ""

def exchangeOf (json : Json) : ExchangeConfig where
  name := textOf json "name"
  marketDataEndpoint := textOf json "marketDataEndpoint"
  executionEndpoint := textOf json "executionEndpoint"

def Supported (exchange : Json) : Prop := (find exchange "name").bind text = some exchangeName

/-- The first of the exchanges that is supported. -/
def Selected (exchanges : List Json) (exchange : Json) : Prop :=
  Supported exchange ∧
    ∃ before after, exchanges = before ++ exchange :: after ∧ ∀ other ∈ before, ¬ Supported other

end

def connectedTo (config : LoadedConfig) (exchange : ExchangeConfig) : ConnectedApplication where
  config := config
  marketDataSource := ⟨exchange.marketDataEndpoint⟩
  snapshotProvider := ⟨exchange.marketDataEndpoint⟩
  executionGateway := ⟨exchange.executionEndpoint⟩
  executionReportSource := ⟨exchange.executionEndpoint⟩
  app := .construct config.toConfig

section
variable {Json : Type} [JsonLibrary Json] {json : Json}

theorem supported_iff : textOf json "name" = exchangeName ↔ Supported json := by
  rw [textOf, Supported]
  cases (find json "name").bind text with
  | none => exact iff_of_false (by decide) nofun
  | some name => rw [Option.getD_some, Option.some.injEq]

variable [LawfulJson Json]

theorem textOf_read {key value : String} (read : member json key getString "" = .ok value) :
    value = textOf json key := by
  rw [member_eq] at read
  rw [textOf]
  cases found : find json key with
  | none =>
    rw [found] at read
    cases read
    rfl
  | some inner =>
    rw [found, Option.elim_some, LawfulJson.getString_text] at read
    rw [Option.bind_some]
    cases written : text inner with
    | none =>
      rw [written] at read
      cases read
    | some name =>
      rw [written] at read
      cases read
      rfl

theorem readExchange_eq {exchange : ExchangeConfig} (read : readExchange json = .ok exchange) :
    exchange = exchangeOf json := by
  simp only [readExchange, bind_eq_ok_iff] at read
  obtain ⟨name, named, marketDataEndpoint, marketData, executionEndpoint, execution, same⟩ := read
  cases same
  rw [exchangeOf, ← textOf_read named, ← textOf_read marketData, ← textOf_read execution]

end

/-- The exchange that the factory looks for. -/
def wanted (config : LoadedConfig) : Option ExchangeConfig :=
  config.exchanges.find? fun exchange => exchange.name = exchangeName

theorem create_eq (make : ExchangeConfig → T) (config : LoadedConfig) :
    create make config = (wanted config).elim (.error .terminated) (fun exchange => .ok (make exchange)) := by
  rw [create, findExchange, ← wanted]
  cases wanted config with
  | none => rfl
  | some exchange => rfl

section
variable {Json : Type} [JsonLibrary Json] {file : ConfigFile Json} {config : LoadedConfig}

/-- The exchanges are read one by one. -/
theorem load_exchanges [LawfulJson Json] (loaded : load file = .ok config) :
    ∃ json, file.parsed = .ok json ∧ config.exchanges = (exchangesOf json).map exchangeOf := by
  simp only [load, bind_eq_ok_iff, caught_eq_ok_iff] at loaded
  obtain ⟨_, _, json, parsed, _, _, _, _, _, _, _, _, _, _, _, _, exchanges, read, _, _, _, _, same⟩ := loaded
  cases same
  rw [member_exchanges] at read
  exact ⟨json, parsed, mapM_eq_map (fun _ _ => readExchange_eq) read⟩

theorem wanted_none_iff {exchanges : List Json} (read : config.exchanges = exchanges.map exchangeOf) :
    wanted config = none ↔
      ∀ exchange ∈ exchanges, ¬ Supported exchange := by
  rw [wanted, read, List.find?_eq_none, List.forall_mem_map]
  apply forall₂_congr
  intro exchange _
  rw [decide_eq_true_eq]
  exact not_congr supported_iff

theorem wanted_some_iff {exchanges : List Json} (read : config.exchanges = exchanges.map exchangeOf)
    {found : ExchangeConfig} :
    wanted config = some found ↔
      ∃ exchange, Selected exchanges exchange ∧ exchangeOf exchange = found := by
  rw [wanted, read, List.find?_map, Option.map_eq_some_iff]
  apply exists_congr
  intro exchange
  apply and_congr_left'
  rw [List.find?_eq_some_iff_append, Selected, Function.comp_apply, decide_eq_true_eq]
  apply and_congr supported_iff
  apply exists₂_congr
  intro before after
  apply and_congr_right'
  apply forall₂_congr
  intro other _
  rw [Function.comp_apply, Bool.not_eq_true', decide_eq_false_iff_not]
  exact not_congr supported_iff

theorem connect_eq (config : LoadedConfig) :
    ConnectedApplication.connect config =
      (wanted config).elim (.error .terminated) fun exchange => .ok (connectedTo config exchange) := by
  simp only [ConnectedApplication.connect, createMarketDataSource, createSnapshotProvider, createExecutionGateway,
    createExecutionReportSource, create_eq]
  cases wanted config with
  | none => rfl
  | some exchange => rfl

variable {parameters : List String} {files : String → ConfigFile Json} {sinks : Except String Unit}

theorem runApp_unlogged (what : String) :
    runApp parameters (.error what) files = .reported ("Application startup failed: " ++ what) := rfl

theorem runApp_unloaded (unloaded : ¬ Returns (load (files (parameters.headD "config.json")))) :
    runApp parameters (.ok ()) files = .reported ("Application startup failed: " ++
      ("Failed to load configuration: " ++ parameters.headD "config.json")) := by
  have failed : ConnectedApplication.construct (parameters.headD "config.json")
      (files (parameters.headD "config.json")) =
        .error (.exception ("Failed to load configuration: " ++ parameters.headD "config.json")) := by
    rw [ConnectedApplication.construct, loadConfig]
    cases loaded : load (files (parameters.headD "config.json")) with
    | error error => rfl
    | ok config => exact absurd ⟨config, loaded⟩ unloaded
  simp only [runApp, failed]
  rfl

theorem runApp_loaded (loaded : load (files (parameters.headD "config.json")) = .ok config) :
    runApp parameters (.ok ()) files =
      (wanted config).elim .terminated fun exchange => .started (connectedTo config exchange).start := by
  have constructed : ConnectedApplication.construct (parameters.headD "config.json")
      (files (parameters.headD "config.json")) = ConnectedApplication.connect config := by
    rw [ConnectedApplication.construct, loadConfig, loaded]
    rfl
  simp only [runApp, constructed, connect_eq]
  cases wanted config with
  | none => rfl
  | some exchange => rfl

theorem reported_iff (message : String) :
    runApp parameters sinks files = .reported message ↔
      (∃ what, sinks = .error what ∧ message = "Application startup failed: " ++ what) ∨
      sinks = .ok () ∧ ¬ Returns (load (files (parameters.headD "config.json"))) ∧
        message = "Application startup failed: " ++
          ("Failed to load configuration: " ++ parameters.headD "config.json") := by
  cases sinks with
  | error what => simp [runApp_unlogged, eq_comm]
  | ok =>
    by_cases returns : Returns (load (files (parameters.headD "config.json")))
    · refine iff_of_false ?_ ?_
      · obtain ⟨config, loaded⟩ := returns
        rw [runApp_loaded loaded]
        cases wanted config <;> exact nofun
      · rintro (⟨_, none, _⟩ | ⟨_, unloaded, _⟩)
        · cases none
        · exact unloaded returns
    · rw [runApp_unloaded returns, Startup.reported.injEq]
      constructor
      · rintro rfl
        exact Or.inr ⟨rfl, returns, rfl⟩
      · rintro (⟨_, none, _⟩ | ⟨_, _, same⟩)
        · cases none
        · exact same.symm

theorem terminated_iff :
    runApp parameters sinks files = .terminated ↔
      sinks = .ok () ∧ ∃ config, load (files (parameters.headD "config.json")) = .ok config ∧ wanted config = none := by
  cases sinks with
  | error what => exact iff_of_false nofun fun unsupported => nomatch unsupported.1
  | ok =>
    rw [and_iff_right rfl]
    by_cases returns : Returns (load (files (parameters.headD "config.json")))
    · obtain ⟨config, loaded⟩ := returns
      simp only [runApp_loaded loaded, loaded, Except.ok.injEq, exists_eq_left']
      cases wanted config with
      | none => exact iff_of_true rfl rfl
      | some exchange => exact iff_of_false nofun nofun
    · rw [runApp_unloaded returns]
      exact iff_of_false nofun fun unsupported => returns ⟨_, unsupported.choose_spec.1⟩

theorem started_iff (connected : ConnectedApplication) :
    runApp parameters sinks files = .started connected ↔
      sinks = .ok () ∧ ∃ config exchange, load (files (parameters.headD "config.json")) = .ok config ∧
        wanted config = some exchange ∧ connected = (connectedTo config exchange).start := by
  cases sinks with
  | error what => exact iff_of_false nofun fun starts => nomatch starts.1
  | ok =>
    rw [and_iff_right rfl]
    by_cases returns : Returns (load (files (parameters.headD "config.json")))
    · obtain ⟨config, loaded⟩ := returns
      rw [runApp_loaded loaded]
      constructor
      · intro started
        cases found : wanted config with
        | none =>
          rw [found] at started
          cases started
        | some exchange =>
          rw [found] at started
          cases started
          exact ⟨config, exchange, loaded, found, rfl⟩
      · intro starts
        obtain ⟨_, exchange, same, found, rfl⟩ := starts
        cases loaded.symm.trans same
        rw [found, Option.elim_some]
    · rw [runApp_unloaded returns]
      refine iff_of_false nofun ?_
      intro starts
      obtain ⟨config, _, loaded, _⟩ := starts
      exact returns ⟨config, loaded⟩

variable [LawfulJson Json]

theorem unsupported_iff :
    (∃ config, load file = .ok config ∧ wanted config = none) ↔
      ∃ json, file.parsed = .ok json ∧ Returns (load file) ∧
        ∀ exchange ∈ exchangesOf json, ¬ Supported exchange := by
  constructor
  · intro unsupported
    obtain ⟨config, loaded, none⟩ := unsupported
    obtain ⟨json, parsed, read⟩ := load_exchanges loaded
    exact ⟨json, parsed, ⟨config, loaded⟩, (wanted_none_iff read).mp none⟩
  · intro unsupported
    obtain ⟨json, parsed, ⟨config, loaded⟩, none⟩ := unsupported
    obtain ⟨other, same, read⟩ := load_exchanges loaded
    cases parsed.symm.trans same
    exact ⟨config, loaded, (wanted_none_iff read).mpr none⟩

theorem selected_iff (connected : ConnectedApplication) :
    (∃ config exchange, load file = .ok config ∧ wanted config = some exchange ∧
      connected = (connectedTo config exchange).start) ↔
      ∃ json exchange config, file.parsed = .ok json ∧ load file = .ok config ∧
        Selected (exchangesOf json) exchange ∧
        connected = (connectedTo config (exchangeOf exchange)).start := by
  constructor
  · intro starts
    obtain ⟨config, _, loaded, found, same⟩ := starts
    obtain ⟨json, parsed, read⟩ := load_exchanges loaded
    obtain ⟨exchange, selected, rfl⟩ := (wanted_some_iff read).mp found
    exact ⟨json, exchange, config, parsed, loaded, selected, same⟩
  · intro starts
    obtain ⟨json, exchange, config, parsed, loaded, selected, same⟩ := starts
    obtain ⟨other, sameJson, read⟩ := load_exchanges loaded
    cases parsed.symm.trans sameJson
    exact ⟨config, _, loaded, (wanted_some_iff read).mpr ⟨exchange, selected, rfl⟩, same⟩

end
section
variable {Message : Type u} (parser : IMarketDataParser Message) (snapshot : Snapshot)

/-- `runApp` is in `start` or, in the destructor, in `stop`. -/
structure Inside (state : RunningApp) : Prop where
  sound : Sound state.app
  running : state.app.running = true
  returned : state.thread ≠ .returned
  destroying : state.thread = .destroying → isStopping state.app.mainThread

variable {state : RunningApp} {app : Application}

/-- No module is stopped whose stopping would end the application. -/
theorem main_running (sound : Sound app) (running : app.running = true) : app.mainStep.running = true := by
  have called := sound.called
  rw [Application.mainStep]
  split
  next => exact running
  next => exact running
  next next modules _ => cases next <;> exact running
  next main =>
    rw [main] at called
    obtain ⟨_, all | ⟨all, _⟩⟩ := called
    · cases all
    · cases all
  next next modules main =>
    rw [main] at called
    obtain ⟨threads, all | ⟨all, _⟩⟩ := called
    · cases all
      exact running
    · cases all
      rw [recorder_blocks sound (threads .recording)]
      exact running

theorem Inside.main (inside : Inside state) : Inside state.mainStep := by
  rw [RunningApp.mainStep]
  split
  next idle thread =>
    -- the destructor calls `stop`
    have called : state.app.stop.mainThread = .stopping Application.stopOrder := by
      rw [Application.stop, if_neg]
      rw [idle, inside.running]
      simp
    have still : state.app.stop.running = true := by
      rw [Application.stop]
      split
      next => exact inside.running
      next => exact inside.running
    refine ⟨(stop_advances inside.sound).1, still, fun returned => ?_, fun _ => ?_⟩
    · cases returned
    · rw [called]
      trivial
  next idle thread =>
    have stopping := inside.destroying thread
    rw [idle] at stopping
    exact stopping.elim
  next =>
    obtain ⟨sound, stays⟩ := main_advances inside.sound
    exact ⟨sound, main_running inside.sound inside.running, inside.returned,
      fun destroying => stays (inside.destroying destroying)⟩

theorem Inside.step (inside : Inside state) (turn : Application.Turn Message) :
    Inside (state.step parser snapshot turn) := by
  have sound := (step_advances parser snapshot state.app turn inside.sound).1
  have thread : ApplicationLiveness.runs turn ≠ none →
      Inside { state with app := state.app.step parser snapshot turn } := by
    intro threads
    obtain ⟨same, main⟩ := ApplicationLiveness.thread_main parser snapshot state.app turn threads
    refine ⟨sound, same.trans inside.running, inside.returned, ?_⟩
    intro destroying
    rw [main]
    exact inside.destroying destroying
  cases turn with
  | main => exact inside.main
  | start => exact inside
  | stop => exact inside
  | receive message =>
    have same : (state.app.receive parser message).running = state.app.running ∧
        (state.app.receive parser message).mainThread = state.app.mainThread := by
      rw [Application.receive]
      split
      next => exact ⟨rfl, rfl⟩
      next => exact ⟨rfl, rfl⟩
    refine ⟨sound, same.1.trans inside.running, inside.returned, ?_⟩
    intro destroying
    show isStopping (state.app.receive parser message).mainThread
    rw [same.2]
    exact inside.destroying destroying
  | _ => exact thread (Option.some_ne_none _)

theorem start_inside (config : LoadedConfig) (exchange : ExchangeConfig) :
    Inside { app := (connectedTo config exchange).start.app } := by
  refine ⟨(start_advances (construct_sound config.toConfig)).1, rfl, fun returned => ?_, fun destroying => ?_⟩
  · cases returned
  · cases destroying

end

end TradingCore.Proofs.ApplicationStartup
