import TradingCore.Execution.Model

/-! Market events and execution reports are kept in memory. -/

namespace TradingCore

structure TradeRecorder where
  marketEventsVec : List MarketEvent := []
  executionReportsVec : List ExecutionReport := []
deriving DecidableEq, Repr

namespace TradeRecorder

def recordEvent (recorder : TradeRecorder) (event : MarketEvent) : TradeRecorder :=
  { recorder with marketEventsVec := recorder.marketEventsVec ++ [event] }

def recordReport (recorder : TradeRecorder) (report : ExecutionReport) : TradeRecorder :=
  { recorder with executionReportsVec := recorder.executionReportsVec ++ [report] }

end TradeRecorder

structure RecordingModule where
  recorder : TradeRecorder := {}
deriving DecidableEq, Repr

def RecordingModule.process (module : RecordingModule) : RecordingEvent → RecordingModule
  | .marketEvent event => { module with recorder := module.recorder.recordEvent event }
  | .executionReport report => { module with recorder := module.recorder.recordReport report }
  | .orderRequest _ => module

end TradingCore
