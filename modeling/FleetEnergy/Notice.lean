/-! Lines of the log. What a run tells its user beside its results is a list of notices, in the order
in which the facts behind them came up. -/
namespace FleetEnergy
set_option autoImplicit false

inductive Level
  | info
  | warning
deriving DecidableEq, Repr

def Level.text : Level → String
  | .info => "INFO"
  | .warning => "WARN"

structure Notice where
  level : Level
  text : String
deriving DecidableEq, Repr

namespace Notice

def info (text : String) : Notice := ⟨.info, text⟩

def warning (text : String) : Notice := ⟨.warning, text⟩

/-- Level and text as one line of the log. -/
def line (n : Notice) : String := n.level.text ++ " " ++ n.text

end Notice

end FleetEnergy
