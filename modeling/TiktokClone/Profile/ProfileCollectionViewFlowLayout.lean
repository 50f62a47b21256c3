import Mathlib.Algebra.Order.Ring.Unbundled.Rat
import Mathlib.Algebra.Ring.Rat
import TiktokClone.Library.Filter

/-!
# The layout of the profile

The profile's layout takes what the flow layout returns, removes every header and footer
and adds the headers of both sections, pushed down with the content offset. The cells
keep their attributes and their order, and the slide bar follows the profile header
without a gap.

Lengths are exact numbers. The two methods of the superclass are parameters, and a trap
of the Swift code has no result.
-/

namespace TiktokClone

open Library

structure CGSize where
  width : ℚ
  height : ℚ
  deriving DecidableEq

structure CGRect where
  x : ℚ
  y : ℚ
  size : CGSize
  deriving DecidableEq

structure IndexPath where
  item : Nat
  «section» : Nat
  deriving DecidableEq

/-- The kinds of supplementary views of `UICollectionView`. -/
inductive ElementKind
  | sectionHeader
  | sectionFooter
  deriving DecidableEq

/-- Two attributes are equal when their values are. -/
structure UICollectionViewLayoutAttributes where
  indexPath : IndexPath
  /-- A cell has no kind. -/
  representedElementKind : Option ElementKind
  frame : CGRect
  zIndex : Int
  deriving DecidableEq

/-- The methods of the flow layout that the profile's layout overrides or calls. -/
structure UICollectionViewFlowLayout where
  layoutAttributesForElements : CGRect → Option (List UICollectionViewLayoutAttributes)
  layoutAttributesForSupplementaryView : ElementKind → IndexPath →
    Option UICollectionViewLayoutAttributes

structure ProfileCollectionViewFlowLayout where
  super : UICollectionViewFlowLayout
  /-- Height for Navigation Bar -/
  navBarHeight : ℚ
  /-- `collectionView?.contentOffset.y` -/
  contentOffsetY : Option ℚ

namespace ProfileCollectionViewFlowLayout

/-- The attributes of a header or a footer. -/
def isSupplementary (attributes : UICollectionViewLayoutAttributes) : Bool :=
  decide (attributes.representedElementKind = some .sectionHeader) ||
    decide (attributes.representedElementKind = some .sectionFooter)

/-- `attributesArray.remove(at: idx)` at the first index of the attributes -/
def removeFirst (attributesArray : List UICollectionViewLayoutAttributes)
    (attributes : UICollectionViewLayoutAttributes) : List UICollectionViewLayoutAttributes :=
  match attributesArray.idxOf? attributes with
  | some idx => attributesArray.eraseIdx idx
  | none => attributesArray

/-- Remove all headers and footers. -/
def removeSupplementary (attributesArray : List UICollectionViewLayoutAttributes) :
    List UICollectionViewLayoutAttributes :=
  attributesArray.foldl (fun array attributes =>
    if isSupplementary attributes then removeFirst array attributes else array) attributesArray

/-- Append Two headers into the first and the second section. -/
def appendHeaders (layout : ProfileCollectionViewFlowLayout)
    (attributesArray : List UICollectionViewLayoutAttributes) :
    List UICollectionViewLayoutAttributes :=
  attributesArray ++
    (layout.super.layoutAttributesForSupplementaryView .sectionHeader ⟨0, 0⟩).toList ++
    (layout.super.layoutAttributesForSupplementaryView .sectionHeader ⟨0, 1⟩).toList

/-- Move the profile header with the offset; there is no result without a collection view. -/
def stickHeader (layout : ProfileCollectionViewFlowLayout)
    (attributes : UICollectionViewLayoutAttributes) : Option UICollectionViewLayoutAttributes :=
  if attributes.indexPath.section = 0 then
    if attributes.representedElementKind = some .sectionHeader then
      let rect := attributes.frame
      layout.contentOffsetY.map fun offset =>
        let attributes :=
          if offset + layout.navBarHeight - rect.size.height > rect.y then
            { attributes with
              frame := { rect with y := offset + layout.navBarHeight - rect.size.height } }
          else attributes
        -- Set z position of SlideBar to the second highest
        { attributes with zIndex := 5 }
    else some attributes
  else some attributes

/-- Move the slide bar with the offset. -/
def stickSlideBar (layout : ProfileCollectionViewFlowLayout)
    (attributes : UICollectionViewLayoutAttributes) : Option UICollectionViewLayoutAttributes :=
  if attributes.indexPath.section = 1 then
    if attributes.representedElementKind = some .sectionHeader then
      let rect := attributes.frame
      layout.contentOffsetY.map fun offset =>
        let attributes :=
          if offset + layout.navBarHeight > rect.y then
            { attributes with frame := { rect with y := offset + layout.navBarHeight } }
          else attributes
        -- Set z position of SlideBar to the highest
        { attributes with zIndex := 10 }
    else some attributes
  else some attributes

def layoutAttributesForElements (layout : ProfileCollectionViewFlowLayout) (rect : CGRect) :
    Option (List UICollectionViewLayoutAttributes) :=
  match layout.super.layoutAttributesForElements rect with
  | none => none
  | some attributesArray =>
    (layout.appendHeaders (removeSupplementary attributesArray)).mapM fun attributes =>
      (layout.stickHeader attributes).bind layout.stickSlideBar

variable {layout : ProfileCollectionViewFlowLayout}
  {attributes : UICollectionViewLayoutAttributes} {offset : ℚ}

end ProfileCollectionViewFlowLayout

end TiktokClone
