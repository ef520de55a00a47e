import ThermalLabel.Element.Sequence

/-! # Selection

The selected ids, and the elements that a marquee hits. -/

namespace ThermalLabel

/-- The ids of the selected elements. -/
abbrev Selection := IdSet

namespace Selection

/-- One id alone. -/
def only (id : ElementId) : Selection := IdSet.add StringMap.empty id

/-- An id added if it is absent and taken away if it is there. -/
def toggle (s : Selection) (id : ElementId) : Selection :=
  if s.contains id then s.erase id else IdSet.add s id

/-- A selection with more ids. -/
def addAll (s : Selection) (ids : List ElementId) : Selection := ids.foldl IdSet.add s

variable {α : Type} [Scalar α]

/-- The ids that elements still have. -/
def retain (s : Selection) (els : List (Element α)) : Selection :=
  s.filterKeys fun id => els.any fun e => e.id == id

/-- The ids of the elements whose rectangle, in canvas pixels, overlaps a marquee. `zoom` is the
number of pixels to a millimetre. -/
def marqueeHits (els : List (Element α)) (measured : MeasuredSizes α) (marquee : Rect α)
    (zoom : α) : List ElementId :=
  Sequence.ids (els.filter fun e => marquee.intersects ((e.bounds measured).scale zoom))

end Selection

end ThermalLabel
