import ProcessChart.Layout.Diagram
import ProcessChart.Layout.Settings

/-!
A flow runs from the exit of one rectangle to the entry of another. If both lie
on one vertical line the route is that line. Otherwise it runs down to a rail,
along it, and down again, whatever the position of the two rectangles.
-/
namespace ProcessChart.LayoutSettings

/-- The rail lies below the higher of the two ends, by a fixed drop and a share of their distance. -/
def railY (s : LayoutSettings) (start finish : Point) : Int :=
  let higher := Float.ofInt (min start.y finish.y)
  let distance := Float.ofInt (finish.y - start.y).natAbs
  pixel (higher + s.edgeDrop + s.edgeRailBias * distance)

def route (s : LayoutSettings) (source target : Bounds) : List Point :=
  let start := source.exit
  let finish := target.entry
  if start.x = finish.x then [start, finish]
  else
    let rail := s.railY start finish
    [start, ⟨start.x, rail⟩, ⟨finish.x, rail⟩, finish]

end ProcessChart.LayoutSettings
