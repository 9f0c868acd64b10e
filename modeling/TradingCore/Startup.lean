import TradingCore.Application
import TradingCore.Config.JsonConfigLoader

/-! From the configuration file to an application that is started, and on to its
destructor. What the functions throw reaches `runApp`, unless a `noexcept` is on
the way. -/

universe u

namespace TradingCore

inductive Failure where
  | exception (what : String)
  | terminated
deriving DecidableEq, Repr

/-- A call of a function that is `noexcept`: what it throws ends the process. -/
def noexcept {T : Type} (result : Except Failure T) : Except Failure T :=
  result.mapError fun _ => .terminated

/-- The constructors of the sinks may throw: that of the file when it cannot be
opened. -/
def createLogger (sinks : Except String Unit) : Except Failure Unit := sinks.mapError .exception

variable {Json : Type} [JsonLibrary Json]

def loadConfig (configPath : String) (file : ConfigFile Json) : Except Failure LoadedConfig :=
  match JsonConfigLoader.load file with
  | .ok config => .ok config
  | .error _ => .error (.exception ("Failed to load configuration: " ++ configPath))

def findExchange (config : LoadedConfig) (name : String) : Except Failure ExchangeConfig :=
  match config.exchanges.find? fun exchange => exchange.name = name with
  | some exchange => .ok exchange
  | none => .error (.exception ("Exchange configuration not found: " ++ name))

structure BinanceMarketDataSource where
  endpoint : String
deriving DecidableEq, Repr

structure BinanceSnapshotProvider where
  endpoint : String
deriving DecidableEq, Repr

structure BinanceExecutionGateway where
  endpoint : String
deriving DecidableEq, Repr

structure BinanceExecutionReportSource where
  endpoint : String
deriving DecidableEq, Repr

namespace BinanceExchangeFactory

def exchangeName : String := "binance"

/-- What the functions of the factory have in common. -/
def create {T : Type} (make : ExchangeConfig → T) (config : LoadedConfig) : Except Failure T :=
  noexcept ((findExchange config exchangeName).map make)

def createMarketDataSource : LoadedConfig → Except Failure BinanceMarketDataSource :=
  create fun exchange => ⟨exchange.marketDataEndpoint⟩

def createSnapshotProvider : LoadedConfig → Except Failure BinanceSnapshotProvider :=
  create fun exchange => ⟨exchange.marketDataEndpoint⟩

def createExecutionGateway : LoadedConfig → Except Failure BinanceExecutionGateway :=
  create fun exchange => ⟨exchange.executionEndpoint⟩

def createExecutionReportSource : LoadedConfig → Except Failure BinanceExecutionReportSource :=
  create fun exchange => ⟨exchange.executionEndpoint⟩

end BinanceExchangeFactory

/-- The application with its configuration and what its modules got from the
factory. -/
structure ConnectedApplication where
  config : LoadedConfig
  marketDataSource : BinanceMarketDataSource
  snapshotProvider : BinanceSnapshotProvider
  executionGateway : BinanceExecutionGateway
  executionReportSource : BinanceExecutionReportSource
  app : Application

namespace ConnectedApplication
open BinanceExchangeFactory

/-- The modules in the order of the members. -/
def connect (config : LoadedConfig) : Except Failure ConnectedApplication := do
  let marketDataSource ← createMarketDataSource config
  let snapshotProvider ← createSnapshotProvider config
  let executionGateway ← createExecutionGateway config
  let executionReportSource ← createExecutionReportSource config
  let app := Application.construct config.toConfig
  return { config, marketDataSource, snapshotProvider, executionGateway, executionReportSource, app }

def construct (configPath : String) (file : ConfigFile Json) : Except Failure ConnectedApplication := do
  connect (← loadConfig configPath file)

def start (connected : ConnectedApplication) : ConnectedApplication :=
  { connected with app := connected.app.start }

end ConnectedApplication

/-- How far `runApp` comes, up to the call of `start`. -/
inductive Startup where
  | started (connected : ConnectedApplication)
  | reported (message : String)
  | terminated

/-- The files by their paths. -/
def runApp (parameters : List String) (sinks : Except String Unit) (files : String → ConfigFile Json) : Startup :=
  let configPath := parameters.headD "config.json"
  let constructed := do
    createLogger sinks
    ConnectedApplication.construct configPath (files configPath)
  match constructed with
  | .ok connected => .started connected.start
  | .error (.exception what) => .reported ("Application startup failed: " ++ what)
  | .error .terminated => .terminated

/-- Where `runApp` is from the call of `start` on. -/
inductive RunAppThread where
  | starting
  | destroying
  | returned
deriving DecidableEq, Repr

structure RunningApp where
  app : Application
  thread : RunAppThread := .starting

namespace RunningApp

/-- The application is destroyed as soon as `start` has returned: its destructor
calls `stop`, and `runApp` returns after that. -/
def mainStep (running : RunningApp) : RunningApp :=
  match running.app.mainThread, running.thread with
  | .idle, .starting => { app := running.app.stop, thread := .destroying }
  | .idle, .destroying => { running with thread := .returned }
  | _, _ => { running with app := running.app.mainStep }

/-- Nobody else calls `start` or `stop`. -/
def step {Message : Type u} (parser : IMarketDataParser Message) (snapshot : Snapshot) (running : RunningApp) :
    Application.Turn Message → RunningApp
  | .main => running.mainStep
  | .start | .stop => running
  | turn => { running with app := running.app.step parser snapshot turn }

end RunningApp

end TradingCore
