import Wayfinder.Kubeconfig.Layout
import Wayfinder.Yaml.Expansion
import Wayfinder.Yaml.Printer

/-!
A kubeconfig as the text of a file.
-/

set_option autoImplicit false
set_option relaxedAutoImplicit false

namespace Wayfinder.Kubeconfig

/-- The kubeconfig that a text spells. -/
def parse? (text : String) : Option Kubeconfig := (Tree.ofYaml? text).bind ofTree?

/-- The text of a kubeconfig. -/
def render (config : Kubeconfig) : String := Yaml.render config.toValue

end Wayfinder.Kubeconfig
