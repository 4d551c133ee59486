/-! # Text in braces -/

namespace Galley.Text

def braced (text : String) : String :=
  String.ofList ('{' :: (text.toList ++ ['}']))

end Galley.Text
