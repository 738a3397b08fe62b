import DriveOverlay.Scene.Snapshot

/-! # Lead markers

A usable lead gets a chevron: larger when near, filled the more the nearer it is and the faster
the gap closes.  A second lead is marked only when it is clearly another vehicle. -/

namespace DriveOverlay

/-- What saw a lead. -/
inductive LeadSource where
  | radar
  | vision
deriving Repr, DecidableEq, Inhabited

/-- The letter on a marker. -/
def LeadSource.label : LeadSource → String
  | .radar => "R"
  | .vision => "V"

/-- A marker: the lead, half the height of the chevron in pixels, the alpha of its fill, and what
saw the lead. -/
structure LeadMarker where
  lead : Lead
  size : Float32
  alpha : UInt8
  source : LeadSource

namespace LeadMarker

/-- The distance from which on a chevron is filled. -/
def fillDistance : Float32 := 40

/-- The closing speed that fills a chevron by itself. -/
def fillSpeed : Float32 := 10

/-- The alpha of the fill. -/
def fillAlpha (distance relativeSpeed : Float32) : UInt8 :=
  if !(distance.isFinite && relativeSpeed.isFinite) || fillDistance ≤ distance then 0 else
  let near := 255 * (1 - distance / fillDistance)
  let alpha :=
    if relativeSpeed < 0 then near + 255 * (-relativeSpeed / fillSpeed) else near
  (Single.clamp alpha 0 255).toUInt8

/-- Half the height of the chevron. -/
def sizeAt (distance : Float32) : Float32 :=
  let d := if distance.isFinite then Single.upper distance 0 else 0
  Single.clamp (25 * 30 / (d / 3 + 30)) 15 30 * 2.35

/-- The marker of a lead. -/
def ofLead (source : LeadSource) (lead : Lead) : LeadMarker :=
  ⟨lead, sizeAt lead.distance, fillAlpha lead.distance lead.relativeSpeed, source⟩

end LeadMarker

/-- Leads no further apart than this are one vehicle. -/
def duplicateGap : Float32 := 3

/-- Two leads are clearly different vehicles. -/
def areDistinct (firstDistance secondDistance : Float32) : Bool :=
  duplicateGap < (firstDistance - secondDistance).abs

/-- Radar distances from here on are no track. -/
def radarRange : Float32 := 149

/-- What sees the leads; without a radar track it is the camera. -/
def LeadSource.ofRadar : Option Float32 → LeadSource
  | some d => if d < radarRange then .radar else .vision
  | none => .vision

/-- The markers of a frame, nearest first. -/
def Snapshot.leadMarkers (s : Snapshot) : List LeadMarker :=
  let marker := LeadMarker.ofLead (.ofRadar s.radarDistance)
  let first := s.firstLead?
  let second := s.secondLead?.filter fun l =>
    first.all fun f => areDistinct f.distance l.distance
  (first.toList ++ second.toList).map marker

end DriveOverlay
