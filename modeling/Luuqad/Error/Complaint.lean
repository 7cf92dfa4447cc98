/-!
# Complaints of the library

What a library function says about an argument it cannot take. The text is in Somali with an English
gloss.
-/

namespace Luuqad

/-- What is wrong with an argument of a library function. -/
inductive Complaint
  | notList | notObject | notText | notNumber | firstNotList | secondNotList
  | firstNotObject | secondNotObject | secondNotFunction
  | indexNotNumber | boundsNotNumbers | startNotNumber | endNotNumber
  | delimiterNotText | substringNotText | suffixNotText | prefixNotText | targetNotText
  | replacementNotText | itemNotText
  | noLength | choiceNotList | limitsNotNumbers | choiceArguments
  | rangeArguments | rangeNotNumbers
deriving DecidableEq, Repr, Inhabited

def Complaint.text : Complaint → String
  | notList => "Qiimahu ma ahan teed (Value is not a list)"
  | notObject => "Qiimahu ma ahan walax (Value is not an object)"
  | notText => "Qiimahu ma ahan qoraal (Value is not a string)"
  | notNumber => "Qiimaha ma ahan abn ama jajab (Value is not a number)"
  | firstNotList => "Qiimaha koowaad ma ahan teed (First value is not a list)"
  | secondNotList => "Qiimaha labaad ma ahan teed (Second value is not a list)"
  | firstNotObject => "Qiimaha koowaad ma ahan walax (First value is not an object)"
  | secondNotObject => "Qiimaha labaad ma ahan walax (Second value is not an object)"
  | secondNotFunction => "Qiimaha labaad ma ahan hawl (Second argument is not a function)"
  | indexNotNumber => "Index waa inuu noqdaa abn (Index must be a number)"
  | boundsNotNumbers =>
    "Bilowga iyo dhamaadka waa inay noqdaan abn (Start and end must be numbers)"
  | startNotNumber => "Bilowga waa inuu noqdaa abn (Start must be a number)"
  | endNotNumber => "Dhamaadka waa inuu noqdaa abn (End must be a number)"
  | delimiterNotText => "Kala qeybiyuhu ma ahan qoraal (Delimiter is not a string)"
  | substringNotText => "Substring-ka ma ahan qoraal (Substring is not a string)"
  | suffixNotText => "Suffix-ka ma ahan qoraal (Suffix is not a string)"
  | prefixNotText => "Prefix-ka ma ahan qoraal (Prefix is not a string)"
  | targetNotText => "Target-ka ma ahan qoraal (Target is not a string)"
  | replacementNotText => "Baddalka ma ahan qoraal (Replacement is not a string)"
  | itemNotText =>
    "teedka mid ka mid ah qiimihiisa ma ahan qoraal (One of the list items is not a string)"
  | noLength =>
    "Qiimaha ma ahan teed, qoraal, ama walax (Value is not a list, string, or object)"
  | choiceNotList => "Qiimaha ma ahan teed (Value is not a list)"
  | limitsNotNumbers => "Qiimayaasha waa inay noqdaan abn ama jajab (Values must be numbers)"
  | choiceArguments =>
    "xul() waxay qaadataa 0, 1, ama 2 qiimo (xul() takes 0, 1, or 2 arguments)"
  | rangeArguments => "baaxad() waxay qaadataa 1 ilaa 3 qiimo (takes 1 to 3 arguments)"
  | rangeNotNumbers =>
    "Dhammaan qiimayaasha waa inay noqdaan abn ama jajab (all values must be numbers)"

/-- What is wrong with the value, rather than the kind, of an argument of a library function. -/
inductive BadValue
  | emptyPop
  | indexOutOfRange (index : Int)
  | emptyChoice
  | limitsReversed
deriving DecidableEq, Repr, Inhabited

def BadValue.text : BadValue → String
  | emptyPop => "Ma saari kartid teed madhan (Cannot pop from an empty list)"
  | indexOutOfRange index =>
    "Index " ++ toString index ++ " waa ka baxsan xadka teedka (Index out of range)"
  | emptyChoice => "teedka waa madhan (List is empty)"
  | limitsReversed =>
    "Qiimaha koowaad waa in uu ka yar yahay ama la mid yahay qiimaha labaad " ++
      "(First value must be less than or equal to second value)"

end Luuqad
