import TradingCore.Proofs.MessageDelivery

/-! The item a message is parsed into is a member of the handler. It is emptied
before each message, so whatever a failed parse or a delivery has left in it is
gone before a parser can see it. -/

universe u

namespace TradingCore.Proofs.MessageIndependence
open MarketDataMessageHandler MessageDelivery

def queuedTrades : ParseResult × MarketDataItem → List Trade
  | (.success, .trades trades) => trades
  | _ => []

variable {Message : Type u} (parser : IMarketDataParser Message)

def contribution (handler : MarketDataMessageHandler) (message : Message) : List BookUpdate × List Trade :=
  ((onMessage parser handler message).bookUpdateQueue.drop handler.bookUpdateQueue.length,
    (onMessage parser handler message).tradeQueue.drop handler.tradeQueue.length)

theorem onMessage_trades (handler : MarketDataMessageHandler) (message : Message) :
    (onMessage parser handler message).tradeQueue =
      handler.tradeQueue ++ queuedTrades (parser message .monostate) := by
  rw [onMessage]
  cases parsed : parser message .monostate with
  | mk result item =>
    dsimp only
    by_cases success : result = .success
    · subst success
      rw [if_neg (not_not_intro rfl)]
      cases item with
      | monostate => exact (List.append_nil _).symm
      | trades trades => rfl
      | bookUpdate update =>
        rw [deliver, queuedTrades, List.append_nil]
        · dsimp only [MarketDataMessageHandler.increment]
          by_cases empty : update.empty
          · rw [if_neg (not_not_intro empty)]
          · rw [if_pos empty]
        · intro trades same
          cases same
    · rw [if_pos success, queuedTrades]
      · exact (List.append_nil _).symm
      · intro trades same
        exact success (congrArg Prod.fst same)

theorem contribution_eq (handler : MarketDataMessageHandler) (message : Message) :
    contribution parser handler message =
      (queuedUpdates (parser message .monostate), queuedTrades (parser message .monostate)) := by
  rw [contribution, onMessage_queue, onMessage_trades, List.drop_left, List.drop_left]

/-- The queues receive what each message parses to on its own, in order; what a
message adds is the same after any two histories. -/
theorem messages_independent (handler : MarketDataMessageHandler) (messages : List Message) :
    (Runs.after (onMessage parser) handler messages).bookUpdateQueue =
      handler.bookUpdateQueue ++ messages.flatMap (fun message => queuedUpdates (parser message .monostate)) ∧
    (Runs.after (onMessage parser) handler messages).tradeQueue =
      handler.tradeQueue ++ messages.flatMap (fun message => queuedTrades (parser message .monostate)) ∧
    ∀ earlier message,
      contribution parser (Runs.after (onMessage parser) {} earlier) message =
        contribution parser (Runs.after (onMessage parser) handler messages) message := by
  refine ⟨Runs.logged (onMessage_queue parser) handler messages,
    Runs.logged (onMessage_trades parser) handler messages, ?_⟩
  intro earlier message
  rw [contribution_eq, contribution_eq]

end TradingCore.Proofs.MessageIndependence
