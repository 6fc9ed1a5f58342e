/-!
# The base set
-/

namespace TypeSurface
namespace Catalog

/-- The set that every mode is built on. -/
def baseText : String :=
  "/// <set id=\"base\" version=\"1.0.0\" />\n" ++
  "
/////////////////////////////
/// Core types shared by every mode
/////////////////////////////

/**
 * An integer used as an index, length, count or position. Relates to
 * `number` in both directions; negative sentinels such as -1 are valid.
 */
type int = number;

type PropertyKey = string | number | symbol;

declare var NaN: number;
declare var Infinity: number;

interface Object \x7b
    /** The initial value of Object.prototype.constructor is the standard built-in Object constructor. */
    constructor: Function;
    toString(): string;
    toLocaleString(): string;
    valueOf(): Object;
    hasOwnProperty(v: PropertyKey): boolean;
    isPrototypeOf(v: Object): boolean;
    propertyIsEnumerable(v: PropertyKey): boolean;
\x7d

interface Function \x7b
    apply(this: Function, thisArg: any, argArray?: any): any;
    call(this: Function, thisArg: any, ...argArray: any[]): any;
    bind(this: Function, thisArg: any, ...argArray: any[]): any;
    toString(): string;
    prototype: any;
    readonly length: int;
    readonly name: string;
\x7d

interface IArguments \x7b
    [index: int]: any;
    length: int;
    callee: Function;
\x7d

interface String \x7b
    /** Returns the length of a String object. */
    readonly length: int;
    readonly [index: int]: string;
    toString(): string;
\x7d

interface Boolean \x7b
    valueOf(): boolean;
\x7d

interface Number \x7b
    toString(radix?: number): string;
\x7d

interface Array<T> \x7b
    /** Gets or sets the length of the array. */
    length: int;
    [n: int]: T;
\x7d

interface ReadonlyArray<T> \x7b
    readonly length: int;
    readonly [n: int]: T;
\x7d
"

end Catalog
end TypeSurface
