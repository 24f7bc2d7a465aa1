import TraceGraph.Graph
import TraceGraph.Number.Angle

/-!
# Positions on the sphere

Nodes are drawn on a sphere: `a` is the longitude and `b` the polar angle, in degrees once
they are stretched by the multipliers. Siblings would be drawn on top of each other, so a
node can be moved along `b` by a number of steps (`Position.adjustedB`).

All arithmetic is in single precision and in the order in which it stands here, since
rounding makes the order visible in the last place of what is printed. The sine and the
cosine are the single-precision numbers nearest to the true values.

The lift is added to the radius of the sphere for the points that it is given with. Where a
node is seen on a screen is left to whoever projects the points; a node that was not drawn
is not seen anywhere (`Node.screenPoint`).
-/

namespace TraceGraph

/-- A point in render space. -/
structure Point where
  x : Float32
  y : Float32
  z : Float32

/-- A projected position; `z` is its depth. -/
structure ScreenPoint where
  x : Float
  y : Float
  z : Float

/-- The size of the sphere and the degrees that a unit of `a` and of `b` stands for. -/
structure Sphere where
  radius : Float32 := 5000
  longitudeStep : Float32 := 1
  polarStep : Float32 := 1

namespace Sphere

/-- How far each step of `bmod` moves a node along `b`. -/
def bmodStep : Float32 := 2

/-- The radians of one degree, rounded to single precision. -/
def radiansPerDegree : Float32 := .ofBits 0x3C8EFA35

/-- The point at longitude `a` and polar angle `b`. The radius is changed by `lift` for this point
only. -/
def point (sphere : Sphere) (lift : Float32) (a : Int32) (b : Float32) : Point :=
  let r := sphere.radius + lift
  let longitude := (a.toFloat32 * sphere.longitudeStep) * radiansPerDegree
  let polar := (b * sphere.polarStep) * radiansPerDegree
  { x := r * Angle.sine polar * Angle.cosine longitude
    y := r * Angle.cosine polar
    z := r * Angle.sine polar * Angle.sine longitude }

end Sphere

namespace Position

/-- The polar angle with the modifier added to it. -/
def adjustedB (p : Position) : Float32 := p.b.toFloat32 + p.bmod.toFloat32 * Sphere.bmodStep

end Position

namespace Node

/-- Where a node is drawn. -/
def point (sphere : Sphere) (lift : Float32) (node : Node) : Point :=
  sphere.point lift node.position.a node.position.adjustedB

/-- Where a node is seen, `none` if it was never drawn. -/
def screenPoint (drawn : UInt32 → Option Point) (project : Point → ScreenPoint) (node : Node) :
    Option ScreenPoint :=
  (drawn node.index).map project

end Node

namespace Graph

/-- The index and the place of every node, in the order of the graph. -/
def layout (sphere : Sphere) (lift : Float32) (g : Graph) : List (UInt32 × Point) :=
  g.nodes.map fun node => (node.index, node.point sphere lift)

end Graph

end TraceGraph
