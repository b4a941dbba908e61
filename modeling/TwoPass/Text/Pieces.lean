/-! # Cutting sequences at separators -/

namespace TwoPass

/-- The pieces of a sequence between separators, which belong to no piece. There
is one piece more than there are separators. -/
def pieces (separates : α → Bool) (items : List α) : List (List α) :=
  items.foldr
    (fun item rest =>
      if separates item then
        [] :: rest
      else
        match rest with
        | [] => [[item]]
        | piece :: others => (item :: piece) :: others)
    [[]]

/-- The pieces of a sequence that hold anything. -/
def words (separates : α → Bool) (items : List α) : List (List α) :=
  (pieces separates items).filter (!·.isEmpty)

example : pieces (· == ',') ['a', ',', ',', 'b', 'c'] = [['a'], [], ['b', 'c']] := rfl
example : words (· == ',') ['a', ',', ',', 'b', 'c'] = [['a'], ['b', 'c']] := rfl

end TwoPass
