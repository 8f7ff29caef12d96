import Firstpass.Core.Exact
import Firstpass.Core.Trace

/-!
# The gate-pass predictor

An online logistic regression over the features of a request and a rung. Each attempt with
a clear verdict is one training example.
-/

namespace Firstpass

variable {G : Type} [Field G] [LinearOrder G] [Analytic G]

def taskKinds : Nat := 7

/-- Rungs past the last slot share it. -/
def rungSlots : Nat := 8

def TaskKind.slot : TaskKind → Nat
  | .codeEdit => 0
  | .testGen => 1
  | .explore => 2
  | .review => 3
  | .extract => 4
  | .chat => 5
  | .other => 6

def sigmoid (z : G) : G := 1 / (1 + Analytic.exp (-(max (-30.0) (min z 30.0))))

def oneHot (width i : Nat) : List G := (List.range width).map fun j => if j = i then 1 else 0

/-- The bias, the task kind, the numbers of the request, and the rung. -/
def encode (features : Features) (rung : Nat) : List G :=
  1 :: (oneHot taskKinds features.taskKind.slot ++
    [((min features.promptTokenBucket 16 : Nat) : G) / 16.0,
      if 0 < features.toolCount then 1 else 0,
      ((min features.toolCount 10 : Nat) : G) / 10.0,
      if features.hasImages then 1 else 0,
      ((min features.sessionFailureCount 5 : Nat) : G) / 5.0] ++
    oneHot rungSlots (min rung (rungSlots - 1)))

structure PassPredictor (G : Type) where
  weights : List G
  lr : G
  l2 : G

namespace PassPredictor

def new (lr l2 : G) : PassPredictor G where
  weights := List.replicate (1 + taskKinds + 5 + rungSlots) 0
  lr := lr
  l2 := l2

def predict (p : PassPredictor G) (features : Features) (rung : Nat) : G :=
  sigmoid (List.zipWith (· * ·) p.weights (encode features rung)).sum

/-- One step of gradient descent. The bias is not shrunk. -/
def update (p : PassPredictor G) (features : Features) (rung : Nat) (passed : Bool) :
    PassPredictor G :=
  let err := p.predict features rung - if passed then 1 else 0
  { p with
    weights := (p.weights.zip (encode features rung)).mapIdx fun i (w, x) =>
      w - p.lr * (err * x + if i = 0 then 0 else p.l2 * w) }

end PassPredictor

end Firstpass
