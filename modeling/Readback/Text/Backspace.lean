import Readback.Text.Bytes
import Readback.Text.Cluster
/-!
# Lines with backspaces in them

A line that comes with its backspaces is read as it looked when it was typed: each of them takes back the cluster before
it that is still there.  How many bytes a cluster has is remembered in one byte, so of a cluster of 256 bytes or more only
what is over the last multiple of 256 is taken back.
-/
namespace Readback.Text

/-- A line while it is typed: what is there, last character first, and the sizes of its clusters, the last one first. -/
structure Typed where
  kept  : List Char := []
  sizes : List Nat := []

/-- A backspace takes back the last cluster; any other cluster is added.  Bytes are taken back only if they are whole
characters. -/
def Typed.enter (t : Typed) (cluster : List Char) : Typed :=
  if cluster = ['\x08'] then
    match t.sizes with
    | []            => t
    | size :: sizes => ⟨(dropBytes size t.kept).getD t.kept, sizes⟩
  else ⟨cluster.reverse ++ t.kept, byteLength cluster % 256 :: t.sizes⟩

/-- The line that is left once its backspaces have taken effect. -/
def typed (line : List Char) : List Char := ((clusters line).foldl Typed.enter {}).kept.reverse

end Readback.Text
