import ConfTree.Text.Escaped
import ConfTree.Tree.RootPath

/-!
# Descriptions of nodes

A node is described to a reader by its path and its verbatim value.
-/

namespace ConfTree.Configuration

/-- The description of an optional node. -/
def describe (conf : Configuration) (node : Option NodeId) : String :=
  match node.bind conf.liveId? with
  | none => "Node(<non-existent>)"
  | some id =>
    "Node \x7b path: " ++ Text.shown (conf.rootPath id) ++ ", value: "
      ++ Text.shownOption (conf.verbatim? id) ++ " \x7d"

end ConfTree.Configuration
