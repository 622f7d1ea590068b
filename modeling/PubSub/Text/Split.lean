/-! # Texts between marks

A text with marks in it is a list of texts without one, and can be put
together again.
-/

namespace PubSub

/-- The texts before, between and after the marks. -/
def split (mark : Char) (s : String) : List String := (s.toList.splitOn mark).map String.ofList

theorem split_inj {mark : Char} {s t : String} (h : split mark s = split mark t) : s = t := by
  have hl : s.toList.splitOn mark = t.toList.splitOn mark :=
    (List.map_inj_right fun _ _ => String.ofList_inj.mp).mp h
  have hc := congrArg [mark].intercalate hl
  rw [List.intercalate_splitOn, List.intercalate_splitOn] at hc
  exact String.toList_inj.mp hc

end PubSub
