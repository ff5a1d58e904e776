import Mathlib.Analysis.Real.Sqrt

/-!
# The movement functions of the page

`lib/utils.ts` and the three state updaters of `page.tsx` that move the robots: `directSeek`,
`moveToPotentialField` and `moveToBoids`.

The updaters are written over any type `K` with the operations they use. What only depends on
their shape (which robots there are, in which order, with which ids) is proved at every `K`, in
particular at floating-point numbers with `NaN`; what depends on the arithmetic is proved at the
reals, with `Math.hypot` the Euclidean norm.

The `robots` state is declared as a list of robots, but `directSeek` also returns a bare robot,
so `RobotsState` has both. An updater that throws has no result.
-/

namespace SwarmBase

/-- What the code uses of numbers: arithmetic, literals, comparisons, `Math.hypot` and
`Math.min`. No law is asked for. -/
class JsArith (K : Type) extends Zero K, One K, Add K, Sub K, Mul K, Div K, NatCast K,
    OfScientific K, LT K, BEq K where
  decidableLT : DecidableLT K
  hypot : K → K → K
  min : K → K → K

instance JsArith.instDecidableLT {K : Type} [JsArith K] : DecidableLT K := JsArith.decidableLT

/-- Exact arithmetic: the reals, with the Euclidean norm. -/
noncomputable instance : JsArith ℝ where
  beq a b := decide (a = b)
  decidableLT := inferInstance
  hypot x y := √(x ^ 2 + y ^ 2)
  min := min

structure Vec (K : Type) where
  x : K
  y : K
  deriving DecidableEq

inductive SwarmType where
  | potential
  | boids
  deriving DecidableEq

structure Robot (K : Type) where
  id : ℕ
  position : Vec K
  velocity : Vec K
  deriving DecidableEq

section Movement

variable {K : Type} [JsArith K]

/-! ### `lib/utils.ts` -/

def Vec.zero : Vec K := ⟨0, 0⟩

def Vec.sub (a b : Vec K) : Vec K := ⟨a.x - b.x, a.y - b.y⟩

def Vec.add (a b : Vec K) : Vec K := ⟨a.x + b.x, a.y + b.y⟩

def Vec.scale (a : Vec K) (s : K) : Vec K := ⟨a.x * s, a.y * s⟩

def Vec.norm (a : Vec K) : K := JsArith.hypot a.x a.y

/-- Whether a condition takes a number as false: `0` or `NaN`, the one number not equal to
itself. -/
def falsy (n : K) : Bool := n == 0 || n != n

def Vec.normalize (a : Vec K) : Vec K :=
  let n := if falsy a.norm then 1 else a.norm
  ⟨a.x / n, a.y / n⟩

def Vec.limit (v : Vec K) (max : K) : Vec K :=
  let n := v.norm
  if max < n then v.scale (max / n) else v

/-! ### `directSeek` -/

/-- The value of the `robots` state. -/
inductive RobotsState (K : Type) where
  | list (rs : List (Robot K))
  /-- A robot that is not in a list. -/
  | robot (r : Robot K)
  deriving DecidableEq

namespace DirectSeek

def maxSpeed : K := 5

/-- The distance of a robot to the target. -/
def dist (cx cy : K) (r : Robot K) : K :=
  let dx := cx - r.position.x
  let dy := cy - r.position.y
  JsArith.hypot dx dy

/-- What the updater makes of a robot that is not at the target. -/
def move (cx cy : K) (r : Robot K) : Robot K :=
  let dx := cx - r.position.x
  let dy := cy - r.position.y
  let d := dist cx cy r
  let ux := dx / d
  let uy := dy / d
  let vx := ux * maxSpeed
  let vy := uy * maxSpeed
  { r with velocity := ⟨vx, vy⟩, position := ⟨r.position.x + vx, r.position.y + vy⟩ }

end DirectSeek

/-- The updater of `directSeek(cx, cy)`. It throws if there is no first robot, and returns the
first robot itself, not a list, if that robot is at the target. -/
def directSeek (cx cy : K) : RobotsState K → Option (RobotsState K)
  | .list [] => none
  | .list (r :: _) =>
    if DirectSeek.dist cx cy r == 0 then some (.robot r) else some (.list [DirectSeek.move cx cy r])
  | .robot _ => none

/-! ### `moveToPotentialField` -/

namespace PotentialField

def sepDist : K := 20
def stoppingDist : K := 5
def attGain : K := 0.1
def repGain : K := 300
def maxSpeed : K := 5
def damping : K := 0.8

/-- Attraction: towards the goal, unless within the stopping distance of it. -/
def fAtt (cx cy : K) (r : Robot K) : Vec K :=
  let dx := cx - r.position.x
  let dy := cy - r.position.y
  let distToGoal := JsArith.hypot dx dy
  if stoppingDist < distToGoal then
    let dir : Vec K := ⟨dx / distToGoal, dy / distToGoal⟩
    let speed := JsArith.min (distToGoal * attGain) maxSpeed
    ⟨dir.x * speed, dir.y * speed⟩
  else Vec.zero

/-- One neighbour's contribution added to the repulsion of `r`. -/
def repel (r : Robot K) (fRep : Vec K) (o : Robot K) : Vec K :=
  if o.id = r.id then fRep
  else
    let rx := r.position.x - o.position.x
    let ry := r.position.y - o.position.y
    let d := JsArith.hypot rx ry
    if 0 < d ∧ d < sepDist then
      let str := repGain / (d * d)
      ⟨fRep.x + rx / d * str, fRep.y + ry / d * str⟩
    else fRep

/-- Repulsion: the sum of the repulsions from the neighbours. -/
def fRep (arr : List (Robot K)) (r : Robot K) : Vec K := arr.foldl (repel r) Vec.zero

/-- What the updater makes of one robot. -/
def move (cx cy : K) (arr : List (Robot K)) (r : Robot K) : Robot K :=
  let att := fAtt cx cy r
  let rep := fRep arr r
  let vx := (att.x + rep.x) * damping
  let vy := (att.y + rep.y) * damping
  { r with position := ⟨r.position.x + vx, r.position.y + vy⟩ }

end PotentialField

/-- The updater of `moveToPotentialField(cx, cy)`. Only a list has a `map`. -/
def moveToPotentialField (cx cy : K) : RobotsState K → Option (RobotsState K)
  | .list rs => some (.list (rs.map (PotentialField.move cx cy rs)))
  | .robot _ => none

/-! ### `moveToBoids` -/

namespace Boids

def visionRadius : K := 50
def sepRadius : K := 20
def sepWeight : K := 1.5
def alignWeight : K := 1.0
def seekWeight : K := 1.2
def cohesionWeight : K := 1.0
def maxSpeed : K := 4
def maxForce : K := 0.1

/-- Steering from a desired velocity: the difference to the current one, limited. -/
def steer (desired : Vec K) (r : Robot K) : Vec K :=
  (desired.sub r.velocity).limit maxForce

/-- Goal seeking, zero at the goal. -/
def seek (cx cy : K) (r : Robot K) : Vec K :=
  let dx := cx - r.position.x
  let dy := cy - r.position.y
  let dGoal := JsArith.hypot dx dy
  if 0 < dGoal then steer ⟨dx / dGoal * maxSpeed, dy / dGoal * maxSpeed⟩ r else Vec.zero

/-- The accumulators of the neighbour loop. -/
structure Neighbors (K : Type) where
  sep : Vec K
  align : Vec K
  coh : Vec K
  countAlign : ℕ
  countCoh : ℕ

def Neighbors.none : Neighbors K := ⟨Vec.zero, Vec.zero, Vec.zero, 0, 0⟩

/-- One turn of the neighbour loop of `r`. -/
def gather (r : Robot K) (acc : Neighbors K) (o : Robot K) : Neighbors K :=
  if o.id = r.id then acc
  else
    let ox := o.position.x - r.position.x
    let oy := o.position.y - r.position.y
    let d := JsArith.hypot ox oy
    let acc :=
      if d < visionRadius then
        { acc with
          align := acc.align.add o.velocity
          countAlign := acc.countAlign + 1
          coh := acc.coh.add o.position
          countCoh := acc.countCoh + 1 }
      else acc
    if 0 < d ∧ d < sepRadius then
      { acc with
        sep := ⟨acc.sep.x - (o.position.x - r.position.x) / d,
          acc.sep.y - (o.position.y - r.position.y) / d⟩ }
    else acc

def neighbors (rs : List (Robot K)) (r : Robot K) : Neighbors K :=
  rs.foldl (gather r) Neighbors.none

/-- Separation, finalized whether or not any neighbour is near. -/
def separation (n : Neighbors K) (r : Robot K) : Vec K :=
  steer (n.sep.normalize.scale maxSpeed) r

def alignment (n : Neighbors K) (r : Robot K) : Vec K :=
  if 0 < n.countAlign then
    let mean : Vec K := ⟨n.align.x / n.countAlign, n.align.y / n.countAlign⟩
    steer (mean.normalize.scale maxSpeed) r
  else n.align

def cohesion (n : Neighbors K) (r : Robot K) : Vec K :=
  if 0 < n.countCoh then
    let mean : Vec K := ⟨n.coh.x / n.countCoh, n.coh.y / n.countCoh⟩
    steer ((mean.sub r.position).normalize.scale maxSpeed) r
  else n.coh

/-- The weighted sum of the four steering terms. -/
def accel (cx cy : K) (rs : List (Robot K)) (r : Robot K) : Vec K :=
  let n := neighbors rs r
  let sep := separation n r
  let align := alignment n r
  let coh := cohesion n r
  let goal := seek cx cy r
  ⟨sep.x * sepWeight + align.x * alignWeight + coh.x * cohesionWeight + goal.x * seekWeight,
    sep.y * sepWeight + align.y * alignWeight + coh.y * cohesionWeight + goal.y * seekWeight⟩

/-- What the updater makes of one robot. -/
def move (cx cy : K) (rs : List (Robot K)) (r : Robot K) : Robot K :=
  let v := (r.velocity.add (accel cx cy rs r)).limit maxSpeed
  { r with velocity := v, position := r.position.add v }

end Boids

/-- The updater of `moveToBoids(cx, cy)`. Only a list has a `map`. -/
def moveToBoids (cx cy : K) : RobotsState K → Option (RobotsState K)
  | .list rs => some (.list (rs.map (Boids.move cx cy rs)))
  | .robot _ => none

/-! ### Registration -/

/-- The robot `registerRobot` appends to a list of `n`. -/
def newRobot (n : ℕ) : Robot K := ⟨n, Vec.zero, Vec.zero⟩

/-- The updater of `registerRobot`. Only a list can be spread into a new one. -/
def appendRobot : RobotsState K → Option (RobotsState K)
  | .list rs => some (.list (rs ++ [newRobot rs.length]))
  | .robot _ => none

end Movement

end SwarmBase
