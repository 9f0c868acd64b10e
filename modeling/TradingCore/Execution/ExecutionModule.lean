import TradingCore.Execution.OrderManager

/-! The execution thread: it owns the positions, the risk manager, the gateway
and the order manager, and handles one work item after the other. -/

namespace TradingCore

/-- The recording queue is only pushed to and is modelled by what was pushed. -/
structure ExecutionModule where
  orderManager : OrderManager := {}
  recordingQueue : List RecordingEvent := []

namespace ExecutionModule

/-- The constructor default-constructs the positions and the risk manager; the
configuration is handed to the exchange factory alone. -/
def construct (_config : Config) : ExecutionModule where
  orderManager := { riskManager := {}, positionManager := {}, gateway := {} }

def increment (module : ExecutionModule) (type : MetricType) : ExecutionModule :=
  { module with orderManager := module.orderManager.increment type }

def record (module : ExecutionModule) (event : RecordingEvent) : ExecutionModule :=
  { module with recordingQueue := module.recordingQueue ++ [event] }

def processRequest (module : ExecutionModule) (request : OrderRequest) : ExecutionModule :=
  let module := (module.increment .orderRequests).record (.orderRequest request)
  -- the result is inspected, but both outcomes go on
  let (_, orderManager) := module.orderManager.createOrder request
  { module with orderManager }.increment .ordersSubmitted

def processReport (module : ExecutionModule) (report : ExecutionReport) : ExecutionModule :=
  let module := (module.increment .executionReports).record (.executionReport report)
  let (processed, orderManager) := module.orderManager.applyExecution report
  let module := { module with orderManager }
  if processed then module else module.increment .executionErrors

def process (module : ExecutionModule) : ExecutionWorkItem → ExecutionModule
  | .request request => module.processRequest request
  | .report report => module.processReport report

/-- The loop of the thread over the items it pops until its queue is closed
and drained. -/
def run (module : ExecutionModule) (workItems : List ExecutionWorkItem) : ExecutionModule :=
  Runs.after process module workItems

end ExecutionModule

end TradingCore
