import DocTags.World

/-!
# The classes of the language

The classes that every world has: those of numbers, texts, collections and types, and above all the
class that the others descend from and the class of classes, with the routines that all classes have
from them.  Their documentation is what a listing shows of them.
-/

namespace DocTags

/-! ## Routines of all classes -/

/-- A routine of all objects. -/
def objectRoutine (name : String) (making : Making) (effect : Effect) (doc : String) :
    String × Value :=
  (name, .routine { name, owner := "object", home := "", doc := some doc, making, effect })

/-- A routine of all objects that belongs to their class. -/
def boundRoutine (type : TypeId) (name : String) (making : Making) (effect : Effect)
    (doc : String) : String × Value :=
  (name, .routine
    { name, owner := lastPart type, home := "", doc := some doc, binding := .bound type, making
      effect })

/-- The routines that all objects have. -/
def objectRoutines : Keyed Value :=
  [objectRoutine "__init__" .slot .refused
      "Initialize self.  See help(type(self)) for accurate signature.",
    objectRoutine "__new__" .builtin .refused
      "Create and return a new object.  See help(type) for accurate signature.",
    objectRoutine "__repr__" .slot .refused "Return repr(self).",
    objectRoutine "__str__" .slot .refused "Return str(self).",
    objectRoutine "__hash__" .slot .refused "Return hash(self).",
    objectRoutine "__eq__" .slot .nothing "Return self==value.",
    objectRoutine "__ne__" .slot .nothing "Return self!=value.",
    objectRoutine "__lt__" .slot .nothing "Return self<value.",
    objectRoutine "__le__" .slot .nothing "Return self<=value.",
    objectRoutine "__gt__" .slot .nothing "Return self>value.",
    objectRoutine "__ge__" .slot .nothing "Return self>=value.",
    objectRoutine "__getattribute__" .slot .look "Return getattr(self, name).",
    objectRoutine "__setattr__" .slot .refused "Implement setattr(self, name, value).",
    objectRoutine "__delattr__" .slot .erase "Implement delattr(self, name).",
    objectRoutine "__dir__" .method .refused "Default dir() implementation.",
    objectRoutine "__format__" .method .format "Default object formatter.",
    objectRoutine "__getstate__" .method .refused "Helper for pickle.",
    objectRoutine "__reduce__" .method .refused "Helper for pickle.",
    objectRoutine "__reduce_ex__" .method .reduce "Helper for pickle.",
    objectRoutine "__sizeof__" .method .refused "Size of object in memory, in bytes.",
    boundRoutine objectType "__init_subclass__" .builtin .refused
      ("This method is called when a class is subclassed.\n\n" ++
        "The default implementation does nothing. It may be\n" ++
        "overridden to extend subclasses.\n"),
    boundRoutine objectType "__subclasshook__" .builtin .nothing
      ("Abstract classes can override this to customize issubclass().\n\n" ++
        "This is invoked early on by abc.ABCMeta.__subclasscheck__().\n" ++
        "It should return True, False or NotImplemented.  If it returns\n" ++
        "NotImplemented, the normal algorithm is used.  Otherwise, it\n" ++
        "overrides the normal algorithm (and the outcome is cached).\n")]

/-- The routines that all classes have as objects. -/
def classRoutines : Keyed Value :=
  [boundRoutine classType "__call__" .wrapper .construct "Call self as a function.",
    boundRoutine classType "__or__" .wrapper .refused "Return self|value.",
    boundRoutine classType "__ror__" .wrapper .refused "Return value|self.",
    boundRoutine classType "__instancecheck__" .builtin .refused
      "Check if an object is an instance.",
    boundRoutine classType "__subclasscheck__" .builtin .refused "Check if a class is a subclass.",
    boundRoutine classType "__subclasses__" .builtin .refused
      "Return a list of immediate subclasses.",
    boundRoutine classType "mro" .builtin .refused "Return a type's method resolution order.",
    ("__prepare__", .routine
      { name := "__prepare__", owner := "type", home := "", making := .builtin
        doc := some
          ("__prepare__() -> dict\n" ++
            "used to create the namespace for the class statement") })]

/-! ## Classes -/

/-- A class of the language. -/
def builtinClass (name : String) (doc : Option String) (members : Keyed Value) : Class where
  id := builtin name
  home := "builtins"
  doc := doc
  members := members

/-- The routines of classes whose objects have elements. -/
def collectionRoutines (owner : String) : Keyed Value :=
  [("__iter__", .routine
      { name := "__iter__", owner, home := "", doc := some "Implement iter(self).", making := .slot
        effect := .refused }),
    ("__contains__", .routine
      { name := "__contains__", owner, home := "", doc := some "Return key in self."
        making := .slot })]

/-- The class of all objects, and the class of classes. -/
def objectClass : Class :=
  builtinClass "object"
    (some
      ("The base class of the class hierarchy.\n\n" ++
        "When called, it accepts no arguments and returns a new featureless\n" ++
        "instance that has no instance attributes and cannot be given any.\n"))
    objectRoutines

def classClass : Class :=
  builtinClass "type"
    (some ("type(object) -> the object's type\n" ++
      "type(name, bases, dict, **kwds) -> a new type"))
    classRoutines

/-- The classes of numbers. -/
def numberClasses : List Class :=
  [builtinClass "int"
      (some
        ("int([x]) -> integer\nint(x, base=10) -> integer\n\n" ++
          "Convert a number or string to an integer, or return 0 if no arguments\n" ++
          "are given.  If x is a number, return x.__int__().  For floating point\n" ++
          "numbers, this truncates towards zero.\n\n" ++
          "If x is not a number or if base is given, then x must be a string,\n" ++
          "bytes, or bytearray instance representing an integer literal in the\n" ++
          "given base.  The literal can be preceded by '+' or '-' and be surrounded\n" ++
          "by whitespace.  The base defaults to 10.  Valid bases are 0 and 2-36.\n" ++
          "Base 0 means to interpret the base from the string as an integer literal.\n" ++
          ">>> int('0b100', base=0)\n4"))
      [],
    { builtinClass "bool"
        (some
          ("bool(x) -> bool\n\n" ++
            "Returns True when the argument x is true, False otherwise.\n" ++
            "The builtins True and False are the only two instances of the class bool.\n" ++
            "The class bool is a subclass of the class int, and cannot be subclassed."))
        [] with
      bases := [builtin "int"] },
    builtinClass "float"
      (some "Convert a string or number to a floating point number, if possible.") []]

/-- The classes of texts and collections. -/
def collectionClasses : List Class :=
  [builtinClass "str"
      (some
        ("str(object='') -> str\nstr(bytes_or_buffer[, encoding[, errors]]) -> str\n\n" ++
          "Create a new string object from the given object. If encoding or\n" ++
          "errors is specified, then the object must expose a data buffer\n" ++
          "that will be decoded using the given encoding and error handler.\n" ++
          "Otherwise, returns the result of object.__str__() (if defined)\n" ++
          "or repr(object).\nencoding defaults to sys.getdefaultencoding().\n" ++
          "errors defaults to 'strict'."))
      (collectionRoutines "str"),
    builtinClass "list"
      (some
        ("Built-in mutable sequence.\n\n" ++
          "If no argument is given, the constructor creates a new empty list.\n" ++
          "The argument must be an iterable if specified."))
      (("__hash__", .null) :: collectionRoutines "list"),
    builtinClass "tuple"
      (some
        ("Built-in immutable sequence.\n\n" ++
          "If no argument is given, the constructor returns an empty tuple.\n" ++
          "If iterable is specified the tuple is initialized from iterable's items.\n\n" ++
          "If the argument is a tuple, the return value is the same object."))
      (collectionRoutines "tuple"),
    builtinClass "dict"
      (some
        ("dict() -> new empty dictionary\n" ++
          "dict(mapping) -> new dictionary initialized from a mapping object's\n" ++
          "    (key, value) pairs\n" ++
          "dict(iterable) -> new dictionary initialized as if via:\n    d = \x7b\x7d\n" ++
          "    for k, v in iterable:\n        d[k] = v\n" ++
          "dict(**kwargs) -> new dictionary initialized with the name=value pairs\n" ++
          "    in the keyword argument list.  For example:  dict(one=1, two=2)"))
      (("__hash__", .null) :: collectionRoutines "dict")]

/-- A class of this library, and what it says about itself. -/
def libraryClass (id : TypeId) (doc : String) : Class where
  id := id
  home := String.ofList (id.toList.take (id.length - (lastPart id).length - 1))
  doc := some doc

/-- The classes of the forms of a type. -/
def formClasses : List Class :=
  [libraryClass (TypeExpr.classOf .mixed) "Any value.",
    libraryClass (TypeExpr.classOf .string) "String()",
    libraryClass (TypeExpr.classOf .number) "int, float or a numeric string.",
    libraryClass (TypeExpr.classOf .integer) "Integer()",
    libraryClass (TypeExpr.classOf .float) "Float()",
    libraryClass (TypeExpr.classOf .boolean) "Boolean()",
    libraryClass (TypeExpr.classOf (.enum []))
      "Membership in a fixed set of scalar values (declaration order kept).",
    libraryClass (TypeExpr.classOf (.ref "")) "Instance of the class behind a type id.",
    libraryClass (TypeExpr.classOf (.tuple []))
      "Fixed-length array; an empty tuple means any array, unchecked.",
    libraryClass (TypeExpr.classOf (.list .mixed))
      "Array whose every element matches the same descriptor."]

/-- The classes of the other values of this library. -/
def valueClasses : List Class :=
  [{ libraryClass tagListType
        "Ordered list of `(key, value)` entries; `key` is None for positional ones." with
      members := ("__hash__", .null) :: collectionRoutines "TagList" },
    { libraryClass placementType
        ("\n    Program elements an annotation may be attached to.\n\n" ++
          "    An annotation type declares a mask; containment is tested with a\n" ++
          "    bitwise AND because a type may allow several placements.\n    ") with
      bases := [builtin "int"] },
    libraryClass missingType "Marker for an attribute without a default value."]

/-- The classes that every world has, beside those of the declaring annotations. -/
def nativeClasses : List Class :=
  [objectClass, classClass] ++ numberClasses ++ collectionClasses ++
    [builtinClass "module"
      (some
        ("Create a module object.\n\n" ++
          "The name must be a string; the optional doc argument can have any type."))
      []] ++ formClasses ++ valueClasses

end DocTags
