import Disasm.View.Basic
/-!
# Requests to a view

Everything that can be asked of a view, as data, with the reply to each.
A run of a view is then a list of requests, and a presenter that calls
back can be described by the requests it makes.
-/

namespace Disasm.View

/-- A call to a view. -/
inductive Request where
  | setup (path : String) (timeout : Option Number)
  | teardown
  | text
  | symbols
  | byAddress
  | addressOf (name : String)
  | lineOf (name : String)
  | symbolAt (address : Int)
  | lastProbe
  deriving Repr

/-- What a call returns. -/
inductive Reply where
  | done
  | shown (listing : Bool)
  | text (s : String)
  | symbols (entries : List (String × Int))
  | byAddress (entries : List (Int × String))
  | address (found : Option Int)
  | line (found : Option Int)
  | symbol (found : Option String)
  | verdict (found : Option Verdict)
  deriving Repr, DecidableEq

variable {P : Type}

/-- Makes a call to a view. -/
def ask (p : Presenter P) (c : Config) : Request → Act (Stage P) Reply
  | .setup path timeout => .shown <$> setup p c path timeout
  | .teardown => do
    teardown p
    return .done
  | .text => .text <$> text
  | .symbols => do
    let t ← symbols
    return .symbols (t.symbols.map fun s => (s.name, s.address))
  | .byAddress => .byAddress <$> byAddress
  | .addressOf name => .address <$> addressOf name
  | .lineOf name => .line <$> lineOf name
  | .symbolAt address => .symbol <$> symbolAt address
  | .lastProbe => return .verdict (← get).view.lastProbe

end Disasm.View
